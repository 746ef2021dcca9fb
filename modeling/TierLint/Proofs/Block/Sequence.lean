import TierLint.Block.Elements
import TierLint.Proofs.Outcome

/-!
# The blocks of some lines

Parsing recognises blocks one behind the other and makes an element of each. The two can be told
apart: `Block.ofLines` is the sequence of blocks alone, and the elements are read off from it block
by block (`elementsOf_eq_mapM`). Recognising never fails; making an element can.

What holds of all lines is shown by one induction (`lines_induction`): over the blocks in order, with
the statement at hand for the lines inside each container. The same goes for what holds of all lines
and their elements (`elementsOf_induction`).
-/

set_option autoImplicit false

namespace TierLint

namespace Block

/-- The blocks that some lines consist of. -/
def ofLines (lines : List Line) : List Block :=
  match lines with
  | [] => []
  | l :: ls =>
    match _h : next l ls with
    | (block, rest) => block :: ofLines rest
termination_by lines.length
decreasing_by
  have := (suffix_and_lighter_of_next _h).1.length_le
  simp
  omega

@[simp] theorem ofLines_nil : ofLines [] = [] := by rw [ofLines]

theorem ofLines_cons (l : Line) (ls : List Line) :
    ofLines (l :: ls) = (next l ls).1 :: ofLines (next l ls).2 := by
  rw [ofLines]

/-- The element for a block, with those of the lines inside it. -/
def tree (b : Block) : Except ParseError Element := do
  let inner ← b.inside.mapM elementsOf
  b.element inner

/-- The elements of some lines are those of their blocks, in order. -/
theorem elementsOf_eq_mapM (lines : List Line) :
    elementsOf lines = (ofLines lines).mapM tree := by
  induction lines using ofLines.induct with
  | case1 => rw [elementsOf_nil, ofLines_nil, List.mapM_nil]; rfl
  | case2 l ls block rest h ih =>
    rw [elementsOf_cons, ofLines_cons, List.mapM_cons, h, ← ih, tree, bind_assoc]
    rfl

/-- The parts of a successful parse: the elements inside the first block, its element, and the
elements of the lines behind it. -/
theorem elementsOf_cons_eq_ok {l : Line} {ls : List Line} {es : List Element}
    (h : elementsOf (l :: ls) = .ok es) :
    ∃ inner first others,
      List.Forall₂ (fun lines es => elementsOf lines = .ok es) (next l ls).1.inside inner ∧
      (next l ls).1.element inner = .ok first ∧ elementsOf (next l ls).2 = .ok others ∧
      es = first :: others := by
  rw [elementsOf_cons] at h
  obtain ⟨inner, hinner, h⟩ := exists_of_bind_eq_ok h
  obtain ⟨first, hfirst, h⟩ := exists_of_bind_eq_ok h
  obtain ⟨others, hothers, h⟩ := exists_of_bind_eq_ok h
  cases h
  exact ⟨inner, first, others, forall₂_of_mapM_ok hinner, hfirst, hothers, rfl⟩

/-- A quote has one sequence of lines inside, and so one of elements. -/
theorem exists_inner_of_quote {R : List Line → List Element → Prop} {ls : List Line}
    {inner : List (List Element)} (h : List.Forall₂ R (quote ls).inside inner) :
    ∃ es, inner = [es] ∧ R ls es := by
  obtain ⟨es, others, hes, none, rfl⟩ := List.forall₂_cons_left_iff.1 h
  obtain rfl := List.forall₂_nil_left_iff.1 none
  exact ⟨es, rfl, hes⟩

/-- Induction over lines as they are parsed. The lines inside a container weigh less than those it was
recognised on, and so do the lines behind a block, so the statement may be used for them. -/
theorem lines_induction {P : List Line → Prop} (nil : P [])
    (cons : ∀ l ls, (∀ ks ∈ (next l ls).1.inside, P ks) → P (next l ls).2 → P (l :: ls))
    (lines : List Line) : P lines := by
  induction weight : Line.weight lines using Nat.strongRecOn generalizing lines with
  | ind w ih =>
    subst weight
    cases lines with
    | nil => exact nil
    | cons l ls =>
      have step : (next l ls).2 <:+ ls ∧
          ∀ ks ∈ (next l ls).1.inside, Line.weight ks < Line.weight (l :: ls) :=
        suffix_and_lighter_of_next rfl
      have behind := Line.weight_le_of_suffix step.1
      apply cons
      · intro ks mem
        exact ih _ (step.2 ks mem) ks rfl
      · refine ih _ ?_ _ rfl
        rw [Line.weight_cons]
        omega

/-- Induction over a successful parse. -/
theorem elementsOf_induction {P : List Line → List Element → Prop} (nil : P [] [])
    (cons : ∀ {l : Line} {ls : List Line} {b : Block} {rest : List Line}
      {inner : List (List Element)} {first : Element} {others : List Element},
      next l ls = (b, rest) → List.Forall₂ P b.inside inner → b.element inner = .ok first →
      P rest others → P (l :: ls) (first :: others)) :
    ∀ {lines : List Line} {es : List Element}, elementsOf lines = .ok es → P lines es := by
  intro lines
  induction lines using lines_induction with
  | nil =>
    intro es h
    rw [elementsOf_nil] at h
    cases h
    exact nil
  | cons l ls inside behind =>
    intro es h
    obtain ⟨inner, first, others, hinner, hfirst, hothers, rfl⟩ := elementsOf_cons_eq_ok h
    refine cons rfl ?_ hfirst (behind hothers)
    exact ((List.forall₂_and_left _ _).2 ⟨@inside, hinner⟩).imp fun ks es ⟨shown, ok⟩ => shown ok

end Block

end TierLint
