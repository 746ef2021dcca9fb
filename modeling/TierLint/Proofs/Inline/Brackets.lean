import TierLint.Inline.Link
import TierLint.Proofs.Inline.Atoms

/-!
# Brackets in link text

The search for the end of a link's text counts brackets outside escapes and code spans. Where a run
of backticks opens no code span, it goes on behind the first backtick, so that a shorter run inside
may open one after all; everything else in running text takes such a run as a whole. The brackets it
passes are balanced (`Link.balanced_of_label?`). They are those of the running text if no part of a
run that opens nothing would open a code span, and otherwise the steps themselves differ
(`Atom.split_ofText_iff`).
-/

set_option autoImplicit false

namespace TierLint

open List Text

namespace Atom

/-- How often the character stands for itself. -/
def count (c : Char) (as : List Atom) : Nat := as.countP (isPlain c)

/-- Backticks that open nothing. -/
def isTicks : Atom → Bool
  | ticks _ => true
  | _ => false

/-- One backtick after the other. -/
def split : Atom → List Atom
  | ticks n => replicate n (ticks 1)
  | a => [a]

/-- No part of a run of backticks that opens nothing would open a code span. -/
def NoPartOpens (as : List Atom) : Prop :=
  ∀ n behind, ticks n :: behind <:+ as →
    ∀ m, 0 < m → m < n → CodeSpan.closing? m (textOf behind) = none

variable {a : Atom} {as : List Atom} {t u : Text}

theorem count_cons (c : Char) (a : Atom) (as : List Atom) :
    count c (a :: as) = (if a.isPlain c then 1 else 0) + count c as := by
  rw [count, countP_cons, Nat.add_comm]
  rfl

theorem count_split (c : Char) (as : List Atom) : count c (as.flatMap split) = count c as := by
  induction as with
  | nil => rfl
  | cons a as ih =>
    have head : count c a.split = if a.isPlain c then 1 else 0 := by
      cases a with
      | ticks n => exact countP_replicate.trans (if_neg Bool.false_ne_true)
      | _ => exact (count_cons c _ []).trans (Nat.add_zero _)
    rw [flatMap_cons, count, countP_append, ← count, ← count, head, ih, count_cons]

theorem flatMap_split_cons (other : a.isTicks = false) (as : List Atom) :
    (a :: as).flatMap split = a :: as.flatMap split := by
  cases a with
  | ticks n => cases other
  | _ => rfl

/-! ## Balance -/

/-- Brackets that close each other, and `depth` brackets that are open in front of them. -/
structure Balanced (depth : Nat) (as : List Atom) : Prop where
  /-- Only open brackets are closed. -/
  inside : ∀ front, front <+: as → count ']' front ≤ depth + count '[' front
  /-- At the end none is open. -/
  whole : count ']' as = depth + count '[' as

namespace Balanced

variable {depth : Nat}

theorem nil : Balanced 0 [] := ⟨fun front h => by rw [prefix_nil.1 h]; decide, rfl⟩

/-- An opening bracket leaves one more to close, a closing one leaves one less. -/
theorem cons {below : Nat} (h : Balanced below as)
    (step : depth + (if a.isPlain '[' then 1 else 0) = below + (if a.isPlain ']' then 1 else 0)) :
    Balanced depth (a :: as) where
  inside front hf := by
    obtain rfl | ⟨front, rfl, inner⟩ := prefix_cons_iff.1 hf
    · exact Nat.zero_le _
    · have := h.inside front inner
      rw [count_cons, count_cons]
      omega
  whole := by
    have := h.whole
    rw [count_cons, count_cons]
    omega

/-- Only the brackets count. -/
theorem of_split (h : Balanced depth (as.flatMap split)) : Balanced depth as where
  inside front hf := by
    obtain ⟨behind, rfl⟩ := hf
    have := h.inside (front.flatMap split) ⟨behind.flatMap split, flatMap_append.symm⟩
    rwa [count_split, count_split] at this
  whole := by
    have := h.whole
    rwa [count_split, count_split] at this

end Balanced

/-! ## Runs that open nothing -/

theorem noPartOpens_nil : NoPartOpens [] := fun _ _ h => by cases suffix_nil.1 h

theorem noPartOpens_ticks {n : Nat} :
    NoPartOpens (ticks n :: as) ↔
      (∀ m, 0 < m → m < n → CodeSpan.closing? m (textOf as) = none) ∧ NoPartOpens as := by
  refine ⟨fun h => ⟨h n as (suffix_refl _), fun k behind hb => ?_⟩, fun h k behind hb => ?_⟩
  · exact h k behind (hb.trans (suffix_cons ..))
  · obtain eq | hb := suffix_cons_iff.1 hb
    · cases eq
      exact h.1
    · exact h.2 k behind hb

theorem noPartOpens_cons (other : a.isTicks = false) :
    NoPartOpens (a :: as) ↔ NoPartOpens as := by
  refine ⟨fun h k behind hb => h k behind (hb.trans (suffix_cons ..)), fun h k behind hb => ?_⟩
  obtain eq | hb := suffix_cons_iff.1 hb
  · cases eq
    cases other
  · exact h k behind hb

/-- Passing a run one backtick at a time comes to its end if no part of it opens a code span. -/
theorem ofText_replicate_iff (hu : startsBy (· == '`') u = false) (k : Nat) (as : List Atom) :
    ofText false (replicate k '`' ++ u) = replicate k (ticks 1) ++ as ↔
      (∀ m, 0 < m → m ≤ k → CodeSpan.closing? m u = none) ∧ ofText false u = as := by
  induction k with
  | zero => exact ⟨fun h => ⟨fun m pos le => by omega, h⟩, fun h => h.2⟩
  | succ k ih =>
    have parts : (∀ m, 0 < m → m ≤ k + 1 → CodeSpan.closing? m u = none) ↔
        CodeSpan.closing? (k + 1) u = none ∧ ∀ m, 0 < m → m ≤ k → CodeSpan.closing? m u = none := by
      refine ⟨fun h => ⟨h _ k.succ_pos le_rfl, fun m pos le => h m pos (Nat.le_succ_of_le le)⟩,
        fun h m pos le => ?_⟩
      obtain rfl | le := (Nat.le_or_eq_of_le_succ le).symm
      · exact h.1
      · exact h.2 m pos le
    have read := CodeSpan.read?_run hu k
    rw [parts]
    cases found : CodeSpan.closing? (k + 1) u with
    | none =>
      rw [found, Option.map_none] at read
      rw [replicate_succ, cons_append] at read ⊢
      rw [ofText_tick read, replicate_succ, cons_append, cons_inj_right, ih, and_assoc,
        and_iff_right rfl]
    | some cut =>
      -- the first step is the code span, not a backtick
      rw [found, Option.map_some] at read
      rw [ofText_codeSpan false read, replicate_succ, cons_append]
      exact ⟨fun h => (by cases (cons.inj h).1), fun h => (by cases h.1.1)⟩

/-- Both ways to pass a text take the same steps exactly if no part of a run that opens nothing
would open a code span. -/
theorem split_ofText_iff (t : Text) :
    ofText false t = (ofText true t).flatMap split ↔ NoPartOpens (ofText true t) := by
  fun_induction ofText true t with
  | case1 => exact iff_of_true (by rw [ofText]; rfl) noPartOpens_nil
  | case2 c rest ih =>
    rw [ofText_escape, flatMap_split_cons rfl, noPartOpens_cons rfl, cons_inj_right, ih]
  | case3 rest span after found ih =>
    rw [ofText_codeSpan false found, flatMap_split_cons rfl, noPartOpens_cons rfl,
      cons_inj_right, ih]
  | case4 rest none more ih =>
    have whole : more = runLength '`' rest := rfl
    have boundary := startsBy_afterRun '`' rest
    rw [whole, drop_runLength] at ih ⊢
    rw [cons_eq_replicate_append_afterRun, Nat.add_comm] at none ⊢
    rw [CodeSpan.read?_run boundary, Option.map_eq_none_iff] at none
    rw [flatMap_cons, split, ofText_replicate_iff boundary, ih, noPartOpens_ticks, textOf_ofText]
    -- the parts of the run and the run as a whole, which opens nothing either
    refine and_congr_left fun _ => ⟨fun h m pos lt => h m pos lt.le, fun h m pos le => ?_⟩
    obtain rfl | lt := le.eq_or_lt
    · exact none
    · exact h m pos lt
  | case5 c rest escape tick ih =>
    have last (backslash : c = '\\') : rest = [] := by
      cases rest with
      | nil => rfl
      | cons d more => exact (escape d more backslash rfl).elim
    rw [ofText_plain last tick, flatMap_split_cons rfl, noPartOpens_cons rfl,
      cons_inj_right, ih]

end Atom

namespace Link

open Atom

variable {depth : Nat} {t label after rest : Text} {l : Link} {span : CodeSpan}

theorem label?_codeSpan (depth : Nat) (h : CodeSpan.read? t = some (span, after)) :
    label? depth t = prependTo span.source (label? depth after) := by
  obtain ⟨rest, rfl⟩ := CodeSpan.exists_cons_of_read? h
  rw [label?]
  split
  · rename_i found
    cases h.symm.trans found
    rfl
  · rename_i found
    cases h.symm.trans found

theorem label?_tick (depth : Nat) (h : CodeSpan.read? ('`' :: rest) = none) :
    label? depth ('`' :: rest) = prependTo ['`'] (label? depth rest) := by
  rw [label?]
  split
  · rename_i found
    cases h.symm.trans found
  · rfl

/-- The bracket that is found closes the text in front of it: the brackets passed on the way close
each other and those that were open. -/
theorem balanced_of_label? (h : label? depth t = some (label, after)) :
    Balanced depth (ofText false label) := by
  -- along the search: `depth` counts the brackets that the rest of the label has still to close
  fun_induction label? depth t generalizing label after with
  | case1 => cases h
  | case2 => cases h
  | case3 depth c rest ih =>
    obtain ⟨inner, hi, rfl⟩ := prependTo_eq_some.1 h
    exact (ofText_escape false c inner).symm ▸ (ih hi).cons rfl
  | case4 depth rest ih =>
    obtain ⟨inner, hi, rfl⟩ := prependTo_eq_some.1 h
    rw [singleton_append, ofText_plain (absurd · (by decide)) (by decide)]
    exact (ih hi).cons rfl
  | case5 rest =>
    cases h
    rw [ofText]
    exact .nil
  | case6 rest outer ih =>
    obtain ⟨inner, hi, rfl⟩ := prependTo_eq_some.1 h
    rw [singleton_append, ofText_plain (absurd · (by decide)) (by decide)]
    exact (ih hi).cons rfl
  | case7 depth rest span behind found ih =>
    obtain ⟨inner, hi, rfl⟩ := prependTo_eq_some.1 h
    -- no backtick follows the code span in the label, as none follows it in the text
    have boundary := CodeSpan.startsBy_of_read? found
    rw [eq_of_label? hi] at boundary
    rw [ofText_codeSpan false (CodeSpan.read?_source_append found (startsBy_of_append boundary))]
    exact (ih hi).cons rfl
  | case8 depth rest none ih =>
    obtain ⟨inner, hi, rfl⟩ := prependTo_eq_some.1 h
    -- the label is only the beginning of the text, in which the backtick opens nothing
    rw [eq_of_label? hi, ← cons_append] at none
    rw [singleton_append, ofText_tick (CodeSpan.read?_eq_none_of_append rfl none)]
    exact (ih hi).cons rfl
  | case9 depth c rest backslash escape opening closing tick ih =>
    obtain ⟨inner, hi, rfl⟩ := prependTo_eq_some.1 h
    have first : c ≠ '\\' := fun hc => by
      cases rest with
      | nil => exact backslash hc rfl
      | cons d more => exact escape d more hc rfl
    rw [singleton_append, ofText_plain (absurd · first) tick]
    refine (ih hi).cons ?_
    rw [isPlain, isPlain, if_neg (by simpa using opening), if_neg (by simpa using closing)]

/-- **Brackets in link text.** The text of a link is balanced if each part of it is passed as the
search for its end passed it. These are the steps that read the text, except where a run of
backticks that opens nothing has a part that would open a code span; without such a run the text is
balanced as it is read. -/
theorem balanced_label (h : read? t = some (l, rest)) :
    Balanced 0 (ofText false l.label) ∧
    (ofText false l.label = (ofText true l.label).flatMap split ↔
      NoPartOpens (ofText true l.label)) ∧
    (NoPartOpens (ofText true l.label) → Balanced 0 (ofText true l.label)) := by
  have balanced : Balanced 0 (ofText false l.label) := by
    unfold read? at h
    split at h
    · split at h
      · rename_i found
        obtain ⟨⟨destination, behind⟩, -, eq⟩ := Option.map_eq_some_iff.1 h
        cases eq
        exact balanced_of_label? found
      · cases h
    · cases h
  have steps := split_ofText_iff l.label
  exact ⟨balanced, steps, fun whole => .of_split (steps.2 whole ▸ balanced)⟩

/-- Brackets in code and behind a backslash do not count, and backticks that no others answer open
nothing. -/
theorem balanced_label_nested :
    let l : Link := ⟨"[`]`\\]]``".toList, "u".toList⟩
    read? "[[`]`\\]]``](u) d".toList = some (l, " d".toList) ∧
      NoPartOpens (ofText true l.label) ∧ Balanced 0 (ofText true l.label) := by
  intro l
  have code : CodeSpan.read? "`]`\\]]``](u) d".toList =
      some (⟨1, [']']⟩, "\\]]``](u) d".toList) := by decide +kernel
  have two : CodeSpan.read? "``](u) d".toList = none := by decide +kernel
  have one : CodeSpan.read? "`](u) d".toList = none := by decide +kernel
  have read : read? "[[`]`\\]]``](u) d".toList = some (l, " d".toList) := by
    simp only [String.reduceToList] at code two one
    simp [read?, label?, label?_codeSpan 1 code, label?_tick 0 two, label?_tick 0 one, prependTo]
    exact ⟨_, rfl, rfl⟩
  have steps : ofText true l.label =
      [.plain '[', .codeSpan ⟨1, [']']⟩, .escape ']', .plain ']', .ticks 2] := by
    have inner : CodeSpan.read? "`]`\\]]``".toList = some (⟨1, [']']⟩, "\\]]``".toList) := by
      decide +kernel
    have last : CodeSpan.read? "``".toList = none := by decide +kernel
    simp only [String.reduceToList] at inner last
    simp [l, ofText_plain, ofText_escape, ofText_codeSpan true inner, ofText_run last, ofText,
      afterRun, runLength]
  have parts : NoPartOpens (ofText true l.label) := by
    rw [steps, noPartOpens_cons rfl, noPartOpens_cons rfl, noPartOpens_cons rfl,
      noPartOpens_cons rfl, noPartOpens_ticks]
    exact ⟨fun m _ _ => CodeSpan.closing?_nil m, noPartOpens_nil⟩
  exact ⟨read, parts, (balanced_label read).2.2 parts⟩

/-- The search for the end of the text takes the second backtick for the beginning of code, and
passes the bracket behind that code as one that closes another. In the text as it is read, nothing
opens that bracket. -/
theorem unbalanced_label :
    let label := "``a`[`]".toList
    read? "[``a`[`]](x)".toList = some (⟨label, ['x']⟩, []) ∧ ¬ Balanced 0 (ofText true label) := by
  dsimp only
  have two : CodeSpan.read? "``a`[`]](x)".toList = none := by decide +kernel
  have one : CodeSpan.read? "`a`[`]](x)".toList = some (⟨1, ['a']⟩, "[`]](x)".toList) := by
    decide +kernel
  have last : CodeSpan.read? "`]](x)".toList = none := by decide +kernel
  have run : CodeSpan.read? "``a`[`]".toList = none := by decide +kernel
  have code : CodeSpan.read? "`[`]".toList = some (⟨1, ['[']⟩, [']']) := by decide +kernel
  simp only [String.reduceToList] at two one last run code
  constructor
  · simp [read?, label?, label?_codeSpan 0 one, label?_tick 0 two, label?_tick 1 last, prependTo]
    exact ⟨rfl, rfl⟩
  · have steps : ofText true "``a`[`]".toList =
        [.ticks 2, .plain 'a', .codeSpan ⟨1, ['[']⟩, .plain ']'] := by
      simp [ofText_run run, ofText_plain, ofText_codeSpan true code, ofText, afterRun, runLength]
    exact fun balanced => absurd (steps ▸ balanced.whole) (by decide)

end Link

end TierLint
