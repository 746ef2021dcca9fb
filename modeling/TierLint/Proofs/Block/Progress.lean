import Mathlib.Algebra.GroupWithZero.Nat
import Mathlib.Data.Prod.Basic
import TierLint.Proofs.Block.Origin
import TierLint.Proofs.Text.Stretch

/-!
# Progress of parsing

The lines inside a container are a stretch of the lines that the container takes, each with something
at the beginning of its content moved aside and the first one without its marker
(`Block.exists_encloses_of_inside`). There can be as many of them as outside, but their contents have
fewer bytes. So every step of parsing makes the contents smaller or leaves fewer lines, no run of
steps goes on for ever (`Block.wellFounded_step`), and containers are nested at most as deep as the
contents have bytes (`Block.ReachedAt.add_contentSize_le`).

What ends early is a block with a heading whose marker would end inside a character. The elements of
some lines are made exactly if parsing comes to no such heading
(`Block.failure?_elementsOf_eq_none_iff`).
-/

set_option autoImplicit false

namespace TierLint

open List Text

/-! ## Contents -/

namespace Line

/-- Number of bytes that the contents of the lines have. -/
def contentSize (ls : List Line) : Nat := (ls.map fun l => byteLength l.content).sum

variable {k l : Line} {ks ls : List Line}

@[simp] theorem contentSize_nil : contentSize [] = 0 := rfl

@[simp] theorem contentSize_cons (l : Line) (ls : List Line) :
    contentSize (l :: ls) = byteLength l.content + contentSize ls :=
  sum_cons

@[simp] theorem contentSize_append (ks ls : List Line) :
    contentSize (ks ++ ls) = contentSize ks + contentSize ls := by
  rw [contentSize, map_append, sum_append, ← contentSize, ← contentSize]

theorem contentSize_le_of_suffix (h : ks <:+ ls) : contentSize ks ≤ contentSize ls := by
  obtain ⟨front, rfl⟩ := h
  rw [contentSize_append]
  apply Nat.le_add_left

/-- The line `k` is the line `l` without something at the beginning of its content. -/
structure Narrows (k l : Line) : Prop where
  content : k.content <:+ l.content
  ending : k.ending = l.ending

theorem narrows_advance (l : Line) (n : Nat) : (l.advance n).Narrows l := ⟨drop_suffix .., rfl⟩

theorem narrows_consume (l : Line) (n : Nat) : (l.consume n).Narrows l := ⟨drop_suffix .., rfl⟩

theorem Narrows.byteLength_le (h : k.Narrows l) : byteLength k.content ≤ byteLength l.content := by
  obtain ⟨front, eq⟩ := h.content
  rw [← eq, byteLength_append]
  apply Nat.le_add_left

/-- What is missing has bytes if it has characters. -/
theorem Narrows.byteLength_lt (h : k.Narrows l) (shorter : k.content.length < l.content.length) :
    byteLength k.content < byteLength l.content := by
  obtain ⟨front, eq⟩ := h.content
  rw [← eq, length_append] at shorter
  have wide := length_le_byteLength front
  rw [← eq, byteLength_append]
  omega

theorem contentSize_le_of_narrows (h : Forall₂ Narrows ks ls) :
    contentSize ks ≤ contentSize ls := by
  induction h with
  | nil => exact Nat.le_refl _
  | cons first _ ih =>
    have := first.byteLength_le
    rw [contentSize_cons, contentSize_cons]
    omega

theorem forall₂_narrows_map {f : Line → Line} (h : ∀ l, (f l).Narrows l) (ls : List Line) :
    Forall₂ Narrows (ls.map f) ls :=
  forall₂_map_left_iff.2 (forall₂_same.2 fun l _ => h l)

end Line

/-! ## Lines inside containers -/

/-- The lines `own` enclose the lines `inner`: line by line something at the beginning of the content
is missing inside, and less is left of it altogether. -/
structure Block.Encloses (own inner : List Line) : Prop where
  narrows : Forall₂ Line.Narrows inner own
  smaller : Line.contentSize inner < Line.contentSize own

/-- It is enough that the first line loses a character. -/
theorem Block.encloses_cons {k l : Line} {ks ls : List Line} (first : k.Narrows l)
    (shorter : k.content.length < l.content.length) (others : Forall₂ Line.Narrows ks ls) :
    Encloses (l :: ls) (k :: ks) := by
  have less := first.byteLength_lt shorter
  have most := Line.contentSize_le_of_narrows others
  refine ⟨.cons first others, ?_⟩
  rw [Line.contentSize_cons, Line.contentSize_cons]
  omega

theorem Quote.encloses_strip {l : Line} (quoted : isQuoted l = true) (ls : List Line) :
    Block.Encloses (l :: ls) ((l :: ls).map strip) :=
  Block.encloses_cons (l.narrows_advance _) (content_length_strip_lt quoted)
    (Line.forall₂_narrows_map (fun k => k.narrows_advance _) ls)

theorem ListItem.encloses_inner {i : ListItem} (marked : i.WellMarked) :
    Block.Encloses (i.first :: i.rest) i.inner := by
  have shorter : (i.first.consume i.marker.contentOffset).content.length <
      i.first.content.length := by
    have nonempty := length_pos_iff.2 (ListMarker.ne_nil_of_read? marked)
    have offset := ListMarker.contentOffset_pos_of_read? marked
    rw [Line.consume, length_drop]
    omega
  exact Block.encloses_cons (i.first.narrows_consume _) shorter
    (Line.forall₂_narrows_map (fun k => k.narrows_advance _) i.rest)

namespace Block

variable {l : Line} {ls lines rest inner : List Line}

/-- The lines inside a container are enclosed by a stretch of the lines that it takes. -/
theorem exists_encloses_of_inside (h : inner ∈ (next l ls).1.inside) :
    ∃ front own back, l :: ls = front ++ own ++ back ++ (next l ls).2 ∧ Encloses own inner := by
  cases eq : (next l ls).1 with
  | quote ks =>
    obtain ⟨opens, rfl⟩ := quote_of_next eq
    rw [eq] at h
    obtain rfl := mem_singleton.1 h
    have behind : (next l ls).2 = ls.dropWhile Quote.isQuoted := by
      rw [next_eq_opened, opens]
      rfl
    refine ⟨[], l :: ls.takeWhile Quote.isQuoted, [], ?_,
      Quote.encloses_strip (Line.isQuoted_of_opener opens) _⟩
    rw [behind, append_nil, nil_append, cons_append, takeWhile_append_dropWhile]
  | list items =>
    obtain ⟨m, opens, rfl⟩ := list_of_next eq
    obtain ⟨marked, whole⟩ := ListItem.all_sequence [] ls (Line.marker_of_opener opens)
    have behind : (next l ls).2 = (ListItem.sequence [] m l ls).2 := by
      rw [next_eq_opened, opens]
      rfl
    rw [eq] at h
    obtain ⟨i, hi, rfl⟩ := mem_map.1 h
    obtain ⟨before, after, split⟩ := append_of_mem hi
    have item : i.WellMarked := marked i hi
    refine ⟨before.flatMap ListItem.all ++ i.gap, i.first :: i.rest, after.flatMap ListItem.all, ?_,
      ListItem.encloses_inner item⟩
    have here : i.all = i.gap ++ i.first :: i.rest := rfl
    rw [behind, ← nil_append (l :: ls), ← whole, split, flatMap_append, flatMap_cons, here]
    simp only [append_assoc]
  | _ =>
    rw [eq] at h
    cases h

/-! ## Steps -/

/-- Inside a container the contents are smaller than outside. -/
theorem contentSize_inside_lt (h : inner ∈ (next l ls).1.inside) :
    Line.contentSize inner < Line.contentSize (l :: ls) := by
  obtain ⟨front, own, back, whole, encloses⟩ := exists_encloses_of_inside h
  have less := encloses.smaller
  rw [whole, Line.contentSize_append, Line.contentSize_append, Line.contentSize_append]
  omega

/-- Behind a block they are no larger. -/
theorem contentSize_behind_le (l : Line) (ls : List Line) :
    Line.contentSize (next l ls).2 ≤ Line.contentSize (l :: ls) :=
  Line.contentSize_le_of_suffix ((suffix_next l ls).trans (suffix_cons l ls))

/-- A step makes the contents smaller, or keeps them no larger and leaves fewer lines. -/
theorem Step.smaller_or_shorter (h : Step lines rest) :
    Line.contentSize rest < Line.contentSize lines ∨
      Line.contentSize rest ≤ Line.contentSize lines ∧ rest.length < lines.length := by
  cases h with
  | behind l ls =>
    have shorter := Nat.lt_succ_of_le (suffix_next l ls).length_le
    exact .inr ⟨contentSize_behind_le l ls, shorter⟩
  | inside mem => exact .inl (contentSize_inside_lt mem)

/-- No run of steps goes on for ever. -/
theorem wellFounded_step : WellFounded fun rest lines => Step lines rest := by
  have lex := (invImage (fun ls => (Line.contentSize ls, ls.length))
    (Prod.lex Nat.lt_wfRel Nat.lt_wfRel)).wf
  apply Subrelation.wf _ lex
  intro rest lines step
  show Prod.Lex _ _ (Line.contentSize rest, rest.length) (Line.contentSize lines, lines.length)
  rw [Prod.lex_iff]
  rcases step.smaller_or_shorter with smaller | ⟨atMost, shorter⟩
  · exact .inl smaller
  · rcases Nat.lt_or_eq_of_le atMost with smaller | same
    · exact .inl smaller
    · exact .inr ⟨same, shorter⟩

/-- Parsing the lines comes to these lines inside so many containers. -/
inductive ReachedAt (lines : List Line) : Nat → List Line → Prop
  | start : ReachedAt lines 0 lines
  | behind {depth : Nat} {l : Line} {ls : List Line} :
      ReachedAt lines depth (l :: ls) → ReachedAt lines depth (next l ls).2
  | inside {depth : Nat} {l : Line} {ls inner : List Line} :
      ReachedAt lines depth (l :: ls) → inner ∈ (next l ls).1.inside →
        ReachedAt lines (depth + 1) inner

/-- Each container costs at least one byte, so there are no more of them around some lines than bytes
are missing. -/
theorem ReachedAt.add_contentSize_le {depth : Nat} (h : ReachedAt lines depth rest) :
    depth + Line.contentSize rest ≤ Line.contentSize lines := by
  induction h with
  | start => exact Nat.le_of_eq (Nat.zero_add _)
  | @behind depth l ls _ ih =>
    have := contentSize_behind_le l ls
    omega
  | inside _ mem ih =>
    have := contentSize_inside_lt mem
    omega

/-- All lines that parsing comes to are inside some number of containers. -/
theorem leadsTo_iff_exists_reachedAt : LeadsTo lines rest ↔ ∃ depth, ReachedAt lines depth rest := by
  constructor
  · intro leads
    apply leads.invariant (P := fun rest => ∃ depth, ReachedAt lines depth rest) _ ⟨0, .start⟩
    rintro ls ks step ⟨depth, reached⟩
    cases step with
    | behind l ls => exact ⟨depth, reached.behind⟩
    | inside mem => exact ⟨depth + 1, reached.inside mem⟩
  · rintro ⟨depth, reached⟩
    induction reached with
    | start => exact .refl lines
    | behind _ ih => exact ih.trans (.behind _ _)
    | inside _ mem ih => exact ih.trans (.inside mem)

theorem leadsTo_cons_iff :
    LeadsTo (l :: ls) rest ↔
      rest = l :: ls ∨ (∃ inner ∈ (next l ls).1.inside, LeadsTo inner rest) ∨
        LeadsTo (next l ls).2 rest := by
  rw [LeadsTo, Relation.ReflTransGen.cases_head_iff]
  constructor
  · rintro (rfl | ⟨ks, step, leads⟩)
    · exact .inl rfl
    · cases step with
      | behind => exact .inr (.inr leads)
      | inside mem => exact .inr (.inl ⟨ks, mem, leads⟩)
  · rintro (rfl | ⟨ks, mem, leads⟩ | leads)
    · exact .inl rfl
    · exact .inr ⟨ks, .inside mem, leads⟩
    · exact .inr ⟨_, .behind l ls, leads⟩

end Block

/-! ## Failures -/

/-- The line opens a heading whose marker, cut off behind the indentation, would end inside a
character. -/
def Line.MarkerSplits (l : Line) : Prop :=
  ∃ level, l.opener = .heading level ∧ splitAtByte level (unindented l.content) = none

namespace Block

variable {l : Line} {ls lines : List Line}

/-- How making the element of a block fails by itself, whatever is inside. -/
def ownFailure? : Block → Option ParseError
  | atxHeading heading => failure? heading.element
  | _ => none

theorem failure?_element (b : Block) (inner : List (List Element)) :
    failure? (b.element inner) = b.ownFailure? := by
  cases b <;> rfl

theorem ownFailure?_next_eq_none_iff : (next l ls).1.ownFailure? = none ↔ ¬ l.MarkerSplits := by
  cases eq : (next l ls).1 with
  | atxHeading heading =>
    obtain ⟨opens, same⟩ := atxHeading_of_next eq
    rw [ownFailure?, AtxHeading.element, same]
    cases cut : splitAtByte heading.level (unindented l.content) with
    | none =>
      refine iff_of_false (fun none => ?_) fun fits => fits ⟨heading.level, opens, cut⟩
      cases none
    | some parts =>
      refine iff_of_true rfl ?_
      rintro ⟨level, opens', splits⟩
      cases opens.symm.trans opens'
      cases cut.symm.trans splits
  | _ =>
    refine iff_of_true rfl ?_
    rintro ⟨level, opens, -⟩
    rw [next_eq_opened, opens] at eq
    cases eq

/-- A block fails as the first lines inside it that fail, or else by itself. -/
theorem failure?_tree (b : Block) :
    failure? b.tree = (b.inside.findSome? fun ks => failure? (elementsOf ks)).or b.ownFailure? := by
  rw [tree, failure?_bind b.failure?_element, failure?_mapM]

/-- Lines fail as their first block that fails. -/
theorem failure?_elementsOf_cons (l : Line) (ls : List Line) :
    failure? (elementsOf (l :: ls)) =
      (failure? (next l ls).1.tree).or (failure? (elementsOf (next l ls).2)) := by
  rw [elementsOf_eq_mapM, elementsOf_eq_mapM, failure?_mapM, failure?_mapM, ofLines_cons,
    findSome?_cons]
  cases failure? (next l ls).1.tree <;> rfl

/-- **Where parsing fails.** The elements of some lines are made exactly if parsing comes to no
heading whose marker would end inside a character. -/
theorem failure?_elementsOf_eq_none_iff :
    failure? (elementsOf lines) = none ↔
      ∀ k ks, LeadsTo lines (k :: ks) → ¬ k.MarkerSplits := by
  induction lines using lines_induction with
  | nil =>
    refine iff_of_true (by rw [elementsOf_nil]; rfl) fun k ks leads => ?_
    rcases Relation.ReflTransGen.cases_head_iff.1 leads with none | ⟨_, step, -⟩
    · cases none
    · cases step
  | cons l ls inside behind =>
    rw [failure?_elementsOf_cons, failure?_tree, Option.or_eq_none_iff, Option.or_eq_none_iff,
      findSome?_eq_none_iff, ownFailure?_next_eq_none_iff, behind]
    constructor
    · rintro ⟨⟨within, here⟩, behind⟩ k ks leads
      rcases leadsTo_cons_iff.1 leads with same | ⟨inner, mem, leads⟩ | leads
      · cases same
        exact here
      · exact (inside inner mem).1 (within inner mem) k ks leads
      · exact behind k ks leads
    · intro fits
      refine ⟨⟨?within, fits l ls (.refl _)⟩, ?behind⟩
      case within =>
        intro inner mem
        apply (inside inner mem).2
        intro k ks leads
        exact fits k ks ((LeadsTo.inside mem).trans leads)
      case behind =>
        intro k ks leads
        exact fits k ks ((LeadsTo.behind l ls).trans leads)

/-- One byte of a no-break space would be the marker. -/
example : Line.MarkerSplits ⟨[], ['\u00a0', '#'], .none⟩ :=
  ⟨1, by decide +kernel, by decide +kernel⟩

/-- Reading the block that begins with the line `l` comes to a heading whose marker would end inside a
character: that line, or one inside the block. -/
def MarkerFails (l : Line) (ls : List Line) : Prop :=
  ∃ k ks, (k :: ks = l :: ls ∨ ∃ inner ∈ (next l ls).1.inside, LeadsTo inner (k :: ks)) ∧
    k.MarkerSplits

/-- The element of a block is made exactly if it has no such heading. -/
theorem failure?_tree_next_eq_none_iff :
    failure? (next l ls).1.tree = none ↔ ¬ MarkerFails l ls := by
  rw [failure?_tree, Option.or_eq_none_iff, findSome?_eq_none_iff, ownFailure?_next_eq_none_iff]
  constructor
  · rintro ⟨inside, here⟩ ⟨k, ks, same | ⟨inner, mem, leads⟩, splits⟩
    · cases same
      exact here splits
    · exact failure?_elementsOf_eq_none_iff.1 (inside inner mem) k ks leads splits
  · intro fits
    constructor
    · intro inner mem
      apply failure?_elementsOf_eq_none_iff.2
      intro k ks leads splits
      exact fits ⟨k, ks, .inr ⟨inner, mem, leads⟩, splits⟩
    · intro splits
      exact fits ⟨l, ls, .inl rfl, splits⟩

end Block

end TierLint
