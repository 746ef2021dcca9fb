import TierLint.Proofs.Block.Locality
import TierLint.Proofs.Block.Opener

/-!
# What further lines change

Let more lines be put behind some lines. A block of these lines that ends in front of a line that is
not blank stays as it is (`Block.next_append_of_someFilled`): every recogniser stops at the first
line that it does not take, or at the blank lines in front of it. A list that takes all lines grows
at its last item only (`ListItem.sequence_append_of_nil`).
-/

set_option autoImplicit false

namespace TierLint

open List

/-- Some of the lines are not blank. -/
def SomeFilled (lines : List Line) : Prop := ∃ l ∈ lines, l.isBlank = false

namespace SomeFilled

variable {ls ks : List Line} {l : Line}

theorem ne_nil (h : SomeFilled ls) : ls ≠ [] := by
  rintro rfl
  obtain ⟨l, mem, -⟩ := h
  cases mem

theorem of_suffix (h : SomeFilled ls) (suffix : ls <:+ ks) : SomeFilled ks := by
  obtain ⟨l, mem, filled⟩ := h
  exact ⟨l, suffix.subset mem, filled⟩

/-- Behind the blank lines in front stands a line that is not blank. -/
theorem exists_dropWhile (h : SomeFilled ls) :
    ∃ next behind, ls.dropWhile (·.isBlank) = next :: behind ∧ next.isBlank = false := by
  obtain ⟨l, mem, filled⟩ := h
  cases eq : ls.dropWhile (·.isBlank) with
  | nil =>
    rw [dropWhile_eq_nil_iff.1 eq l mem] at filled
    cases filled
  | cons next behind =>
    have first := head?_dropWhile_not (·.isBlank) ls
    rw [eq] at first
    exact ⟨next, behind, rfl, first⟩

end SomeFilled

/-! ## Runs of lines -/

section Runs

variable {p : Line → Bool} {ls rest : List Line} {l : Line}

theorem dropWhile_append_of_cons (h : ls.dropWhile p = l :: rest) (more : List Line) :
    (ls ++ more).dropWhile p = l :: (rest ++ more) := by
  rw [dropWhile_append, h]
  rfl

/-- A run that ends in front of a line ends there for good. -/
theorem span_append_of_ne_nil (h : ls.dropWhile p ≠ []) (more : List Line) :
    (ls ++ more).takeWhile p = ls.takeWhile p ∧
      (ls ++ more).dropWhile p = ls.dropWhile p ++ more := by
  obtain ⟨next, behind, eq⟩ := exists_cons_of_ne_nil h
  rw [takeWhile_append_of_dropWhile eq, dropWhile_append_of_cons eq, eq]
  exact ⟨rfl, rfl⟩

/-- A run that takes all lines goes on behind them. -/
theorem takeWhile_append_of_nil (h : ls.dropWhile p = []) (more : List Line) :
    (ls ++ more).takeWhile p = ls ++ more.takeWhile p :=
  takeWhile_append_of_pos (dropWhile_eq_nil_iff.1 h)

theorem dropWhile_append_of_nil (h : ls.dropWhile p = []) (more : List Line) :
    (ls ++ more).dropWhile p = more.dropWhile p :=
  dropWhile_append_of_pos (dropWhile_eq_nil_iff.1 h)

end Runs

namespace Line

variable {accepts : Bool → Line → Bool} {ls : List Line}

/-- A search that ends in front of a line that is not blank ends there for good. -/
theorem reach_append (afterBlank : Bool) (h : SomeFilled (ls.drop (reach accepts afterBlank ls)))
    (more : List Line) :
    reach accepts afterBlank (ls ++ more) = reach accepts afterBlank ls := by
  induction ls generalizing afterBlank with
  | nil => exact absurd rfl h.ne_nil
  | cons l ls ih =>
    by_cases blank : l.isBlank = true
    · rw [reach_cons_of_isBlank accepts afterBlank blank] at h
      have left : SomeFilled (ls.drop (reach accepts true ls)) := by
        split at h
        · rename_i none
          obtain ⟨k, mem, filled⟩ := h
          rcases mem_cons.1 mem with rfl | mem
          · rw [blank] at filled
            cases filled
          · exact ⟨k, none ▸ mem, filled⟩
        · exact h
      rw [cons_append, reach_cons_of_isBlank accepts afterBlank blank,
        reach_cons_of_isBlank accepts afterBlank blank, ih true left]
    · rw [reach, if_neg blank] at h
      rw [cons_append, reach, reach, if_neg blank, if_neg blank]
      split
      · rename_i accepted
        rw [if_pos accepted] at h
        rw [ih false h]
      · rfl

/-- A search that takes all lines goes on behind them. The last line that it takes is not blank. -/
theorem reach_append_of_eq_length (afterBlank : Bool)
    (h : reach accepts afterBlank ls = ls.length) (more : List Line) :
    reach accepts afterBlank (ls ++ more) =
      ls.length + reach accepts (ls.isEmpty && afterBlank) more := by
  induction ls generalizing afterBlank with
  | nil => simp
  | cons l ls ih =>
    rw [cons_append, isEmpty_cons, Bool.false_and, length_cons]
    rw [length_cons] at h
    by_cases blank : l.isBlank = true
    · rw [reach_cons_of_isBlank accepts afterBlank blank] at h ⊢
      -- a blank line is taken only together with a line behind it
      have all : reach accepts true ls = ls.length ∧ ls ≠ [] := by
        split at h
        · omega
        · rename_i some
          refine ⟨by omega, ?_⟩
          rintro rfl
          exact some rfl
      have filled : 0 < ls.length := length_pos_iff.2 all.2
      rw [ih true all.1, isEmpty_eq_false_iff.2 all.2, Bool.false_and, if_neg (by omega)]
      omega
    · rw [reach, if_neg blank] at h ⊢
      split
      · rename_i accepted
        rw [if_pos accepted] at h
        rw [ih false (by omega), Bool.and_false]
        omega
      · rename_i refused
        rw [if_neg refused] at h
        omega

end Line

namespace ListItem

/-- Nothing stands behind the marker, on its line or below it. -/
def isBare (i : ListItem) : Bool :=
  i.rest.isEmpty && Text.isBlank (i.first.content.drop i.marker.contentOffset)

/-- Those of the lines behind an item that go on with it, if its content begins at column `offset`. -/
def onward (offset : Nat) (afterBlank : Bool) (more : List Line) : List Line :=
  more.take (Line.reach (continues offset) afterBlank more)

/-- The item with those of the lines behind it that go on with it. -/
def extend (i : ListItem) (more : List Line) : ListItem :=
  { i with rest := i.rest ++ onward i.marker.contentOffset i.isBare more }

theorem isBlank_of_isBare {i : ListItem} (h : i.isBare = true) :
    ∀ l ∈ i.inner, l.isBlank = true := by
  obtain ⟨alone, blank⟩ := Bool.and_eq_true_iff.1 h
  rw [inner, isEmpty_iff.1 alone]
  exact forall_mem_singleton.2 blank

theorem inner_extend (i : ListItem) (more : List Line) :
    (i.extend more).inner = i.inner ++
      (onward i.marker.contentOffset i.isBare more).map (strip i.marker.contentOffset) := by
  rw [inner, inner, extend, map_append]
  rfl

variable {gap ls : List Line} {m : ListMarker} {first : Line}

/-- An item that ends in front of a line that is not blank ends there for good. -/
theorem reach_append (h : SomeFilled (ls.drop (reach m first ls))) (more : List Line) :
    reach m first (ls ++ more) = reach m first ls ∧
      (ls ++ more).take (reach m first ls) = ls.take (reach m first ls) ∧
      (ls ++ more).drop (reach m first ls) = ls.drop (reach m first ls) ++ more := by
  have within : reach m first ls ≤ ls.length := Line.reach_le_length _ _ ls
  exact ⟨Line.reach_append _ h more, take_append_of_le_length within,
    drop_append_of_le_length within⟩

/-- An item that another line follows, which is no item of the list, stays the last one. -/
theorem sequence_append_of_last (gap : List Line) (h : SomeFilled (ls.drop (reach m first ls)))
    (last : ∀ next behind, (ls.drop (reach m first ls)).dropWhile (·.isBlank) = next :: behind →
      ∀ m', ListMarker.read? next.content = some m' → m'.kind ≠ m.kind) (more : List Line) :
    sequence gap m first (ls ++ more) =
      ([⟨gap, m, first, ls.take (reach m first ls)⟩], ls.drop (reach m first ls) ++ more) := by
  obtain ⟨sameReach, taken, left⟩ := reach_append h more
  obtain ⟨next, behind, eq, -⟩ := h.exists_dropWhile
  rw [sequence_eq_singleton gap (ls ++ more), sameReach, taken, left]
  rw [sameReach, left, dropWhile_append_of_cons eq]
  intro next' behind' eq'
  cases eq'
  exact last next behind eq

/-- An item that another item of the list follows ends for good, for the other one begins with a
marker; what lies behind the list comes behind the other items. -/
theorem sequence_append_of_same (gap : List Line) {next : Line} {behind : List Line}
    (split : (ls.drop (reach m first ls)).dropWhile (·.isBlank) = next :: behind) {m' : ListMarker}
    (hm' : ListMarker.read? next.content = some m') (same : m'.kind = m.kind) (more : List Line) :
    sequence gap m first (ls ++ more) =
      let later := sequence ((ls.drop (reach m first ls)).takeWhile (·.isBlank)) m' next
        (behind ++ more)
      (⟨gap, m, first, ls.take (reach m first ls)⟩ :: later.1, later.2) := by
  have filled : SomeFilled (ls.drop (reach m first ls)) := SomeFilled.of_suffix
    ⟨next, mem_cons_self, ListMarker.isBlank_eq_false hm'⟩ (split ▸ dropWhile_suffix _)
  obtain ⟨sameReach, taken, left⟩ := reach_append filled more
  have split' : ((ls ++ more).drop (reach m first (ls ++ more))).dropWhile (·.isBlank) =
      next :: (behind ++ more) := by
    rw [sameReach, left]
    exact dropWhile_append_of_cons split more
  rw [sequence_eq_cons gap split' hm' same, sameReach, taken, left,
    takeWhile_append_of_dropWhile split]

/-- A list that ends in front of a line that is not blank ends there for good. -/
theorem sequence_append_of_someFilled (h : SomeFilled (sequence gap m first ls).2)
    (more : List Line) :
    sequence gap m first (ls ++ more) =
      ((sequence gap m first ls).1, (sequence gap m first ls).2 ++ more) := by
  fun_induction sequence gap m first ls with
  | case1 gap m first ls n item none =>
    -- only blank lines would be left
    obtain ⟨next, behind, eq, -⟩ := h.exists_dropWhile
    rw [none] at eq
    cases eq
  | case2 gap m first ls n item next behind split m' hm' same items rest eq ih =>
    rw [eq] at ih
    rw [sequence_append_of_same gap split hm' same, ih h]
  | case3 gap m first ls n item next behind split m' hm' other =>
    refine sequence_append_of_last gap h (fun next' behind' eq m₂ hm₂ => ?_) more
    cases split.symm.trans eq
    cases hm'.symm.trans hm₂
    exact other
  | case4 gap m first ls n item next behind split unmarked =>
    refine sequence_append_of_last gap h (fun next' behind' eq m₂ hm₂ => ?_) more
    cases split.symm.trans eq
    cases unmarked.symm.trans hm₂

/-- A list that takes all lines grows at its last item: the item takes those of the further lines
that go on with it, and other items or none stand behind it. -/
theorem sequence_append_of_nil (h : (sequence gap m first ls).2 = []) (more : List Line) :
    ∃ front i, (sequence gap m first ls).1 = front ++ [i] ∧
      ∃ back, (sequence gap m first (ls ++ more)).1 = front ++ i.extend more :: back := by
  fun_induction sequence gap m first ls with
  | case1 gap m first ls n item none =>
    have whole : n = ls.length := le_antisymm (Line.reach_le_length _ _ ls) (drop_eq_nil_iff.1 h)
    obtain ⟨back, eq⟩ := exists_sequence_eq_cons gap m first (ls ++ more)
    refine ⟨[], item, rfl, back, ?_⟩
    rw [eq, reach, Line.reach_append_of_eq_length _ whole, take_length_add_append, nil_append]
    simp only [item, extend, onward, isBare, whole, take_length]
  | case2 gap m first ls n item next behind split m' hm' same items rest eq ih =>
    rw [eq] at ih
    obtain ⟨front, i, last, back, grown⟩ := ih h
    refine ⟨item :: front, i, congrArg (item :: ·) last, back, ?_⟩
    rw [sequence_append_of_same gap split hm' same]
    exact congrArg (item :: ·) grown
  | case3 gap m first ls n item next behind split =>
    have none : ls.drop n = [] := h
    rw [none] at split
    cases split
  | case4 gap m first ls n item next behind split =>
    have none : ls.drop n = [] := h
    rw [none] at split
    cases split

end ListItem

/-! ## Blocks -/

theorem Table.read?_append {l : Line} {ls rest : List Line} {t : Table}
    (h : read? (l :: ls) = some (t, rest)) (filled : rest ≠ []) (more : List Line) :
    read? (l :: (ls ++ more)) = some (t, rest ++ more) := by
  cases ls with
  | nil => cases h
  | cons delimiter ls =>
    rw [read?] at h
    split at h
    · rename_i header
      cases h
      obtain ⟨taken, left⟩ := span_append_of_ne_nil filled more
      rw [cons_append, read?, if_pos header, taken, left]
    · cases h

/-- A table that takes all lines goes on with the rows behind them. -/
theorem Table.read?_append_of_nil {l : Line} {ls : List Line} {t : Table}
    (h : read? (l :: ls) = some (t, [])) (more : List Line) :
    read? (l :: (ls ++ more)) =
      some ({ t with body := t.body ++ more.takeWhile isRow }, more.dropWhile isRow) := by
  cases ls with
  | nil => cases h
  | cons delimiter ls =>
    rw [read?] at h
    split at h
    · rename_i header
      obtain ⟨rfl, all⟩ := Prod.mk.inj (Option.some.inj h)
      have taken := takeWhile_append_dropWhile (p := isRow) (l := ls)
      rw [all, append_nil] at taken
      rw [cons_append, read?, if_pos header, takeWhile_append_of_nil all,
        dropWhile_append_of_nil all, taken]
    · cases h

/-- Only the second line decides whether the first one is the header of a table. -/
theorem Table.read?_append_eq_none {l : Line} {ls : List Line} (h : read? (l :: ls) = none)
    (filled : ls ≠ []) (more : List Line) : read? (l :: (ls ++ more)) = none := by
  obtain ⟨delimiter, ls, rfl⟩ := exists_cons_of_ne_nil filled
  rw [read?] at h
  split at h
  · cases h
  · rename_i header
    rw [cons_append, read?, if_neg header]

namespace Paragraph

variable {l k : Line} {ls : List Line}

/-- A paragraph that ends in front of a line, or with an underline, stays the same. -/
theorem begin_append (h : ls.dropWhile continues ≠ []) (more : List Line) :
    begin l (ls ++ more) = ((begin l ls).1, (begin l ls).2 ++ more) := by
  obtain ⟨next, behind, eq⟩ := exists_cons_of_ne_nil h
  simp only [begin, eq, dropWhile_append_of_cons eq, takeWhile_append_of_dropWhile eq]
  cases underlined : isUnderline next <;> simp [Option.filter, underlined]

theorem begin_of_nil (h : ls.dropWhile continues = []) : begin l ls = (⟨l :: ls, none⟩, []) := by
  have taken := takeWhile_append_dropWhile (p := continues) (l := ls)
  rw [h, append_nil] at taken
  rw [begin, taken, h]
  rfl

/-- A paragraph that takes all lines goes on with a line as the text that begins there does. -/
theorem begin_append_of_continues (all : ls.dropWhile continues = []) (h : continues k = true)
    (more : List Line) :
    begin l (ls ++ k :: more) =
      (⟨l :: ls ++ (begin k more).1.lines, (begin k more).1.underline?⟩, (begin k more).2) := by
  rw [begin, takeWhile_append_of_nil all, dropWhile_append_of_nil all, takeWhile_cons_of_pos h,
    dropWhile_cons_of_pos h]
  rfl

/-- A paragraph that takes all lines ends at a line that does not go on with it, as a heading if the
line is an underline. -/
theorem begin_append_of_not_continues (all : ls.dropWhile continues = [])
    (h : continues k = false) (more : List Line) :
    begin l (ls ++ k :: more) =
      if isUnderline k then (⟨l :: ls, some k⟩, more) else (⟨l :: ls, none⟩, k :: more) := by
  rw [begin, takeWhile_append_of_nil all, dropWhile_append_of_nil all,
    takeWhile_cons_of_neg (by simp [h]), dropWhile_cons_of_neg (by simp [h]), append_nil]
  cases underlined : isUnderline k <;> simp [Option.filter, underlined]

end Paragraph

namespace Block

variable {l : Line} {ls : List Line}

/-- A block that ends in front of a line that is not blank stays the same if more lines follow. -/
theorem next_append_of_someFilled (h : SomeFilled (next l ls).2) (more : List Line) :
    next l (ls ++ more) = ((next l ls).1, (next l ls).2 ++ more) := by
  have left : ls ≠ [] := by
    rintro rfl
    exact h.ne_nil (suffix_nil.1 (suffix_next ..))
  rw [next_eq_opened] at h
  rw [next_eq_opened, next_eq_opened]
  generalize l.opener = o at h
  cases o with
  | blank | heading | thematicBreak => rfl
  | fence fence =>
    cases eq : ls.dropWhile (!fence.closedBy ·) with
    | nil =>
      have none := h.ne_nil
      simp [opened, eq] at none
    | cons closing behind =>
      simp only [opened, eq, dropWhile_append_of_cons eq, takeWhile_append_of_dropWhile eq]
      rfl
  | quote | html =>
    dsimp only [opened] at h ⊢
    obtain ⟨taken, left⟩ := span_append_of_ne_nil h.ne_nil more
    rw [taken, left]
  | item m =>
    dsimp only [opened] at h ⊢
    rw [ListItem.sequence_append_of_someFilled h]
  | code =>
    dsimp only [opened] at h ⊢
    rw [Line.reach_append _ h, take_append_of_le_length, drop_append_of_le_length] <;>
      exact Line.reach_le_length _ _ ls
  | text =>
    rcases opened_text_cases l ls with ⟨t, rest, found, eq⟩ | ⟨noTable, eq⟩ <;> rw [eq] at h ⊢
    · rw [opened, Table.read?_append found h.ne_nil]
    · rw [opened, Table.read?_append_eq_none noTable left, Paragraph.begin_append]
      intro none
      rw [Paragraph.begin_of_nil none] at h
      exact h.ne_nil rfl

end Block

end TierLint
