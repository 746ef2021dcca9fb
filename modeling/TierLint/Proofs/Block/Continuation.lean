import TierLint.Proofs.Block.Extension
import TierLint.Proofs.Block.Joined
import TierLint.Proofs.Block.Shape

/-!
# Which lines a paragraph joins

Whether a line is joined to the line in front of it can be told from the blocks of the lines above
it: the last of them is, or ends in, a paragraph that the line goes on with (`Block.Joins`). At a
container the question is asked again for the lines inside it.

The lines behind the line have a say as well, since an underline makes a heading of the paragraph.
-/

set_option autoImplicit false

namespace TierLint

open List

namespace Block

/-- The block is a paragraph, or a container that ends in one, and the first of the lines behind it
joins this paragraph. -/
inductive Joins : Block → List Line → Prop
  /-- The line goes on with the paragraph, is no delimiter row below a header and stands above no
  underline. -/
  | paragraph {p : Paragraph} {k : Line} {more : List Line} :
      p.underline? = none → Paragraph.continues k = true →
      Table.read? (p.lines ++ k :: more) = none → (Paragraph.begin k more).1.underline? = none →
      Joins (.paragraph p) (k :: more)
  /-- Without its quote marker the line joins the last block of the quote. -/
  | quote {inner : List Line} {b : Block} {behind : List Line} :
      (ofLines inner).getLast? = some b →
      Joins b ((behind.takeWhile Quote.isQuoted).map Quote.strip) → Joins (.quote inner) behind
  /-- The line goes on with the last item, and without the indentation of the item it joins the last
  block there. -/
  | list {items : List ListItem} {i : ListItem} {b : Block} {behind : List Line} :
      items.getLast? = some i → (ofLines i.inner).getLast? = some b →
      Joins b ((ListItem.onward i.marker.contentOffset false behind).map
        (ListItem.strip i.marker.contentOffset)) →
      Joins (.list items) behind

/-- The first of the lines `behind` joins the paragraph that the lines `above` end in. -/
def JoinsBehind (above behind : List Line) : Prop :=
  ∃ b, (ofLines above).getLast? = some b ∧ b.Joins behind

variable {b : Block} {above behind ls more : List Line} {l k : Line}

theorem Joins.ne_nil (h : b.Joins behind) : behind ≠ [] := by
  induction h with
  | paragraph => exact cons_ne_nil _ _
  | quote _ _ ih =>
    rintro rfl
    exact ih rfl
  | list _ _ _ ih =>
    rintro rfl
    exact ih rfl

theorem ofLines_of_isBlank (h : ∀ l ∈ ls, l.isBlank = true) : ofLines ls = ls.map blank := by
  induction ls with
  | nil => exact ofLines_nil
  | cons l ls ih =>
    obtain ⟨first, others⟩ := forall_mem_cons.1 h
    rw [ofLines_cons, next_of_isBlank first, ih others]
    rfl

/-- Nothing joins blank lines. -/
theorem not_joinsBehind_of_isBlank (h : ∀ l ∈ above, l.isBlank = true) :
    ¬JoinsBehind above behind := by
  rintro ⟨b, last, joins⟩
  rw [ofLines_of_isBlank h] at last
  obtain ⟨l, -, rfl⟩ := mem_map.1 (mem_of_getLast? last)
  cases joins

theorem joined_head (lines : List Line) : (joined lines)[0]? ≠ some true := by
  intro marked
  obtain ⟨m, -, -, eq, -⟩ := not_isBlank_of_joined marked
  cases eq

@[simp] theorem length_joined (lines : List Line) : (joined lines).length = lines.length :=
  (marksFilled_joined lines).length

end Block

theorem ListItem.length_flatten_joined (items : List ListItem) :
    (items.map ListItem.joined).flatten.length = (items.flatMap ListItem.all).length := by
  simp [length_flatten, length_flatMap, Function.comp_def, ListItem.joined, ListItem.all,
    ListItem.inner]

namespace Block

variable {ls more : List Line} {l k : Line}

/-! ## A first block that takes all lines above -/

/-- The first line behind a block is joined to nothing. -/
theorem not_joined_behind {marks : List Bool} {n : Nat} (h : marks.length = n) (lines : List Line) :
    (marks ++ joined lines)[n]? ≠ some true := by
  rw [getElem?_append_right (le_of_eq h), h, Nat.sub_self]
  exact joined_head lines

/-- A block that is neither a container nor a paragraph has no line joined. -/
theorem joined_append_of_leaf {b : Block} {rest : List Line} (eq : next l (ls ++ more) = (b, rest))
    (leaf : b.joinedWith (b.inside.map joined) = replicate b.lines.length false)
    (behind : rest.length ≤ more.length) :
    (joined (l :: (ls ++ more)))[(l :: ls).length]? ≠ some true := by
  have length := congrArg List.length (lines_next eq).2
  simp only [length_append, length_map, length_cons] at length
  rw [joined_cons, eq, leaf]
  by_cases within : (l :: ls).length < b.lines.length
  · -- the block takes the line in
    rw [getElem?_append_left (by rwa [length_replicate]), getElem?_replicate, if_pos within]
    simp
  · rw [length_cons] at within
    refine not_joined_behind ?_ _
    rw [length_replicate, length_cons]
    omega

/-- A quote takes in the lines behind it that carry markers, and the first of them is joined in the
quote or not at all. -/
theorem joined_append_of_quote (opens : l.opener = .quote)
    (all : ls.dropWhile Quote.isQuoted = []) (behind : List Line) :
    (joined (l :: (ls ++ behind)))[(l :: ls).length]? = some true ↔
      (joined ((l :: ls).map Quote.strip ++
        (behind.takeWhile Quote.isQuoted).map Quote.strip))[(l :: ls).length]? = some true := by
  rw [joined_cons, next_eq_opened, opens, opened, takeWhile_append_of_nil all,
    dropWhile_append_of_nil all]
  dsimp only [joinedWith, Block.inside]
  rw [map_cons, map_nil, flatten_singleton, ← cons_append, map_append]
  cases behind.takeWhile Quote.isQuoted with
  | nil => exact iff_of_false (not_joined_behind (by simp) _) (by simp)
  | cons k ks => rw [getElem?_append_left (by simp)]

/-- The first line behind an item is joined to nothing, also if it belongs to another item. -/
theorem not_joined_behind_item {marks : List Bool} {n : Nat} (h : marks.length = n)
    (items : List ListItem) (lines : List Line) :
    (marks ++ ((items.map ListItem.joined).flatten ++ joined lines))[n]? ≠ some true := by
  cases items with
  | nil => exact not_joined_behind h lines
  | cons i items =>
    rw [getElem?_append_right (le_of_eq h), h, Nat.sub_self, map_cons, flatten_cons, append_assoc,
      ListItem.joined, append_assoc]
    cases i.gap with
    | nil =>
      rw [length_nil, replicate_zero, nil_append, getElem?_append_left (by simp [ListItem.inner])]
      exact joined_head _
    | cons => simp [replicate_succ]

/-- A list takes in the lines behind it that go on with its last item, and the first of them is joined
in the item or not at all. -/
theorem joined_append_of_item {m : ListMarker} (opens : l.opener = .item m)
    (all : (ListItem.sequence [] m l ls).2 = []) (behind : List Line) :
    ∃ i, (ListItem.sequence [] m l ls).1.getLast? = some i ∧
      ((joined (l :: (ls ++ behind)))[(l :: ls).length]? = some true ↔
        (joined (i.inner ++ (ListItem.onward i.marker.contentOffset i.isBare behind).map
          (ListItem.strip i.marker.contentOffset)))[i.inner.length]? = some true) := by
  obtain ⟨front, i, last, back, grown⟩ := ListItem.sequence_append_of_nil all behind
  refine ⟨i, by rw [last, getLast?_append, getLast?_singleton]; rfl, ?_⟩
  -- the lines behind stand behind those of `front` and of `i`
  have whole := (ListItem.all_sequence [] ls (Line.marker_of_opener opens)).2
  rw [all, last, append_nil, flatMap_append, flatMap_singleton, nil_append] at whole
  have place : (l :: ls).length =
      (front.map ListItem.joined).flatten.length + (i.gap.length + i.inner.length) := by
    rw [← whole, length_append, ListItem.length_flatten_joined]
    simp [ListItem.all, ListItem.inner]
  rw [joined_cons, next_eq_opened, opens, opened]
  dsimp only
  rw [joinedWith_list, grown, map_append, map_cons, flatten_append, flatten_cons, append_assoc,
    append_assoc, place, ListItem.joined, ListItem.inner_extend]
  cases ListItem.onward i.marker.contentOffset i.isBare behind with
  | nil =>
    rw [map_nil, append_nil, ← append_assoc]
    exact iff_of_false (not_joined_behind_item (by simp [ListItem.extend]) back _) (by simp)
  | cons k ks =>
    rw [getElem?_append_right (Nat.le_add_right ..), Nat.add_sub_cancel_left, append_assoc,
      getElem?_append_right (by simp [ListItem.extend]),
      getElem?_append_left (by simp [ListItem.extend])]
    simp [ListItem.extend]

/-- A paragraph takes the line in if it goes on, and then the line is joined to it, unless the two
are the head of a table or an underline follows. -/
theorem joined_append_of_text (opens : l.opener = .text) (noTable : Table.read? (l :: ls) = none)
    (all : ls.dropWhile Paragraph.continues = []) :
    (joined (l :: (ls ++ k :: more)))[(l :: ls).length]? = some true ↔
      Paragraph.continues k = true ∧ Table.read? (l :: ls ++ k :: more) = none ∧
        (Paragraph.begin k more).1.underline? = none := by
  have next := next_eq_opened l (ls ++ k :: more)
  rw [opens] at next
  rcases opened_text_cases l (ls ++ k :: more) with ⟨t, rest, found, eq⟩ | ⟨none, eq⟩
  · -- the line is the delimiter row below a header
    have alone : ls = [] := by
      by_contra filled
      rw [Table.read?_append_eq_none noTable filled] at found
      cases found
    subst alone
    refine iff_of_false (joined_append_of_leaf (next.trans eq) rfl ?_) ?_
    · exact (Table.suffix_of_read? found).length_le
    · rintro ⟨-, none, -⟩
      cases none.symm.trans found
  · rw [cons_append, and_iff_right none]
    cases goesOn : Paragraph.continues k with
    | false =>
      -- the paragraph ends here, with the line for an underline or in front of it
      rw [eq, Paragraph.begin_append_of_not_continues all goesOn] at next
      refine iff_of_false ?_ (by simp)
      split at next
      · exact joined_append_of_leaf next rfl (Nat.le_succ _)
      · rw [joined_cons, next]
        exact not_joined_behind (by simp [joinedWith]) _
    | true =>
      -- the line is taken in, and the lines behind it tell whether this is a heading
      rw [eq, Paragraph.begin_append_of_continues all goesOn] at next
      rw [and_iff_right rfl]
      cases plain : (Paragraph.begin k more).1.underline? with
      | none =>
        rw [plain] at next
        rw [joined_cons, next]
        refine iff_of_true ?_ rfl
        rw [getElem?_append_left (by simp [joinedWith, Paragraph.begin])]
        simp [joinedWith, Paragraph.begin]
      | some u =>
        rw [plain] at next
        refine iff_of_false (joined_append_of_leaf next rfl ?_) (by simp)
        exact Nat.le_succ_of_le (Paragraph.suffix_of_read?
          (Paragraph.read?_eq_begin (Paragraph.isBlank_eq_false goesOn) more)).length_le

/-- Running text that takes all lines above: a table, an open paragraph, or a heading whose underline
is the last line. -/
theorem joined_append_iff_of_text (opens : l.opener = .text) (all : (next l ls).2 = []) :
    (joined (l :: (ls ++ k :: more)))[(l :: ls).length]? = some true ↔
      (next l ls).1.Joins (k :: more) := by
  have grown := next_eq_opened l (ls ++ k :: more)
  rw [next_eq_opened, opens] at all ⊢
  rw [opens] at grown
  rcases opened_text_cases l ls with ⟨t, rest, found, eq⟩ | ⟨noTable, eq⟩ <;> rw [eq] at all ⊢
  · obtain rfl : rest = [] := all
    rw [opened, Table.read?_append_of_nil found] at grown
    exact iff_of_false (joined_append_of_leaf grown rfl (dropWhile_suffix _).length_le) (by rintro ⟨⟩)
  · by_cases ended : ls.dropWhile Paragraph.continues = []
    · -- the paragraph is open
      rw [joined_append_of_text opens noTable ended, Paragraph.begin_of_nil ended]
      constructor
      · rintro ⟨goesOn, none, plain⟩
        exact .paragraph rfl goesOn none plain
      · rintro ⟨-, goesOn, none, plain⟩
        exact ⟨goesOn, none, plain⟩
    · -- the last line above is an underline, so the block stays as it is
      have above : ls ≠ [] := fun none => ended (by rw [none]; rfl)
      rw [opened, Table.read?_append_eq_none noTable above, Paragraph.begin_append ended, all,
        nil_append] at grown
      have underlined : (Paragraph.begin l ls).1.underline? ≠ none := fun plain =>
        ended ((Paragraph.begin_snd_of_underline? plain).symm.trans all)
      generalize (Paragraph.begin l ls).1 = p at grown underlined
      obtain ⟨lines, underline?⟩ := p
      cases underline? with
      | none => exact absurd rfl underlined
      | some u =>
        refine iff_of_false (joined_append_of_leaf grown rfl le_rfl) ?_
        rintro ⟨plain, -⟩
        cases plain

/-- A fence that takes all lines above takes a part of the lines behind them, or none. -/
theorem length_rest_append_of_fence (fence : Fence)
    (all : (opened (.fence fence) l ls).2 = []) (behind : List Line) :
    (opened (.fence fence) l (ls ++ behind)).2.length ≤ behind.length := by
  dsimp only [opened] at all ⊢
  cases eq : ls.dropWhile (!fence.closedBy ·) with
  | nil =>
    rw [dropWhile_append_of_nil eq]
    exact ((tail_suffix _).trans (dropWhile_suffix _)).length_le
  | cons closing rest =>
    rw [eq] at all
    obtain rfl : rest = [] := all
    rw [dropWhile_append_of_cons eq]
    exact le_rfl

/-- Indented code that takes all lines above takes a part of the lines behind them, or none. -/
theorem length_rest_append_of_code (all : (opened .code l ls).2 = []) (behind : List Line) :
    (opened .code l (ls ++ behind)).2.length ≤ behind.length := by
  dsimp only [opened] at all ⊢
  have whole : Line.reach (fun _ => IndentedCode.isCode) false ls = ls.length :=
    le_antisymm (Line.reach_le_length _ _ ls) (drop_eq_nil_iff.1 all)
  rw [Line.reach_append_of_eq_length _ whole, drop_length_add_append]
  exact (drop_suffix _ _).length_le

/-- The line behind a block that takes all lines above, if the same is known inside the block. -/
theorem joined_append_iff_joins (all : (next l ls).2 = [])
    (inside : ∀ ks ∈ (next l ls).1.inside, ∀ behind,
      (joined (ks ++ behind))[ks.length]? = some true ↔ JoinsBehind ks behind)
    (behind : List Line) :
    (joined (l :: (ls ++ behind)))[(l :: ls).length]? = some true ↔
      (next l ls).1.Joins behind := by
  have grown := next_eq_opened l (ls ++ behind)
  cases opens : l.opener with
  | text =>
    cases behind with
    | nil => exact iff_of_false (by simp) fun joins => joins.ne_nil rfl
    | cons k more => exact joined_append_iff_of_text opens all
  | quote =>
    rw [next_eq_opened, opens] at all inside ⊢
    have taken := takeWhile_append_dropWhile (p := Quote.isQuoted) (l := ls)
    rw [show ls.dropWhile Quote.isQuoted = [] from all, append_nil] at taken
    have own := inside _ (mem_singleton.2 rfl) ((behind.takeWhile Quote.isQuoted).map Quote.strip)
    rw [taken, length_map] at own
    rw [joined_append_of_quote opens all, own, opened, taken]
    constructor
    · rintro ⟨b, last, joins⟩
      exact .quote last joins
    · rintro (_ | ⟨last, joins⟩)
      exact ⟨_, last, joins⟩
  | item m =>
    rw [next_eq_opened, opens] at all inside ⊢
    obtain ⟨i, last, eq⟩ := joined_append_of_item opens all behind
    rw [eq, inside _ (mem_map_of_mem (mem_of_getLast? last))]
    -- behind a bare marker there is nothing to join
    have filled {b : Block} {ks : List Line} (lastBlock : (ofLines i.inner).getLast? = some b)
        (joins : b.Joins ks) : i.isBare = false :=
      Bool.eq_false_iff.2 fun bare =>
        not_joinsBehind_of_isBlank (ListItem.isBlank_of_isBare bare) ⟨b, lastBlock, joins⟩
    constructor
    · rintro ⟨b, lastBlock, joins⟩
      exact .list last lastBlock (filled lastBlock joins ▸ joins)
    · rintro (_ | _ | ⟨last', lastBlock, joins⟩)
      cases last.symm.trans last'
      exact ⟨_, lastBlock, (filled lastBlock joins).symm ▸ joins⟩
  | blank | heading | thematicBreak =>
    rw [next_eq_opened, opens] at all ⊢
    rw [opens] at grown
    obtain rfl : ls = [] := all
    exact iff_of_false (joined_append_of_leaf grown rfl le_rfl) (by rintro ⟨⟩)
  | fence fence =>
    rw [next_eq_opened, opens] at all ⊢
    rw [opens] at grown
    have rest := length_rest_append_of_fence fence all behind
    exact iff_of_false (joined_append_of_leaf grown rfl rest) (by rintro ⟨⟩)
  | html =>
    rw [next_eq_opened, opens] at all ⊢
    rw [opens] at grown
    refine iff_of_false (joined_append_of_leaf grown rfl ?_) (by rintro ⟨⟩)
    rw [dropWhile_append_of_nil all]
    exact (dropWhile_suffix _).length_le
  | code =>
    rw [next_eq_opened, opens] at all ⊢
    rw [opens] at grown
    have rest := length_rest_append_of_code all behind
    exact iff_of_false (joined_append_of_leaf grown rfl rest) (by rintro ⟨⟩)

/-! ## All lines above -/

theorem ofLines_ne_nil (h : ls ≠ []) : ofLines ls ≠ [] := by
  obtain ⟨l, ls, rfl⟩ := exists_cons_of_ne_nil h
  rw [ofLines_cons]
  exact cons_ne_nil _ _

/-- The lines above end with the same block as those behind their first block. -/
theorem joinsBehind_cons_iff {behind : List Line} (h : (next l ls).2 ≠ []) :
    JoinsBehind (l :: ls) behind ↔ JoinsBehind (next l ls).2 behind := by
  obtain ⟨b, bs, eq⟩ := exists_cons_of_ne_nil (ofLines_ne_nil h)
  rw [JoinsBehind, JoinsBehind, ofLines_cons, eq, getLast?_cons_cons]

theorem joinsBehind_iff_joins {behind : List Line} (h : (next l ls).2 = []) :
    JoinsBehind (l :: ls) behind ↔ (next l ls).1.Joins behind := by
  rw [JoinsBehind, ofLines_cons, h, ofLines_nil, getLast?_singleton]
  simp

/-- **Joined lines.** A line is joined to the line in front of it exactly if it joins the paragraph
that the lines above it end in. -/
theorem joined_append_iff (above behind : List Line) :
    (joined (above ++ behind))[above.length]? = some true ↔ JoinsBehind above behind := by
  induction above using lines_induction generalizing behind with
  | nil =>
    refine iff_of_false (joined_head _) ?_
    rintro ⟨b, last, -⟩
    rw [ofLines_nil] at last
    cases last
  | cons l ls inside rest =>
    by_cases all : (next l ls).2 = []
    · rw [joinsBehind_iff_joins all]
      exact joined_append_iff_joins all inside behind
    · rw [joinsBehind_cons_iff all]
      by_cases filled : SomeFilled (next l ls).2
      · -- the first block stays as it is, and the marks of its lines stand in front
        have length := congrArg List.length (joined_cons l ls)
        rw [length_append, length_joined, length_joined] at length
        rw [← rest, cons_append, joined_cons, next_append_of_someFilled filled, length,
          getElem?_append_right (Nat.le_add_right ..), Nat.add_sub_cancel_left]
      · -- the line in front is one of the blank lines behind the block
        have blank : ∀ j ∈ (next l ls).2, j.isBlank = true := fun j hj =>
          by_contra fun no => filled ⟨j, hj, Bool.eq_false_iff.2 no⟩
        refine iff_of_false (fun marked => ?_) (not_joinsBehind_of_isBlank blank)
        obtain ⟨m, j, -, last, hj, -, filled, -⟩ := not_isBlank_of_joined marked
        obtain ⟨front, eq⟩ := (suffix_next l ls).trans (suffix_cons l ls)
        have some := length_pos_iff.2 all
        rw [← eq, length_append] at last
        rw [← eq, append_assoc, getElem?_append_right (by omega),
          getElem?_append_left (by omega)] at hj
        exact absurd ((blank j (mem_of_getElem? hj)).symm.trans filled) (by decide)

/-- A line joins the paragraph of an item in a quote. -/
example : JoinsBehind [⟨[], "> - a".toList, .lf⟩] [⟨[], "> b".toList, .lf⟩] :=
  let i : ListItem := ⟨[], ⟨.bullet '-', 0, ['-'], 1, none⟩, ⟨"> ".toList, "- a".toList, .lf⟩, []⟩
  ⟨.quote [i.first], by decide +kernel,
    .quote (b := .list [i]) (by decide +kernel)
      (.list rfl (b := .paragraph ⟨[⟨[], ['a'], .lf⟩], none⟩) (by decide +kernel)
        (.paragraph rfl (by decide +kernel) (by decide +kernel) (by decide +kernel)))⟩

end Block

end TierLint
