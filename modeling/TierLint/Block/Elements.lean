import TierLint.Block.Basic

/-!
# Elements of blocks

The syntax elements for a sequence of lines: one for each block, in order. A
container holds the elements of the lines inside it, so parsing is recursive;
it ends because those lines weigh less than the container's own. The only way
to fail is a heading whose marker would end inside a character.
-/

set_option autoImplicit false

namespace TierLint

namespace Block

/-- The element for a block, given the elements of each line sequence inside it. -/
def element (inner : List (List Element)) : Block → Except ParseError Element
  | .blank l => .ok l.blankElement
  | .fencedCode code => .ok code.element
  | .atxHeading heading => heading.element
  | .thematicBreak l => .ok (ThematicBreak.element l)
  | .quote _ => .ok (.node .blockQuote inner.flatten)
  | .list items => .ok (.node .list (List.zipWith ListItem.elements items inner).flatten)
  | .html lines => .ok (Html.element lines)
  | .table t => .ok t.element
  | .indentedCode lines => .ok (IndentedCode.element lines)
  | .paragraph p => .ok p.element
  | .literal l => .ok (.node .paragraph (l.elements .text))

/-- The elements of the blocks that some lines consist of. -/
def elementsOf (lines : List Line) : Except ParseError (List Element) :=
  match lines with
  | [] => .ok []
  | l :: ls =>
    match _h : next l ls with
    | (block, rest) => do
      let inner ← block.inside.attach.mapM fun ⟨lines, _⟩ => elementsOf lines
      let first ← block.element inner
      let others ← elementsOf rest
      .ok (first :: others)
termination_by Line.weight lines
decreasing_by
  · exact (suffix_and_lighter_of_next _h).2 _ ‹_›
  · have := Line.weight_le_of_suffix (suffix_and_lighter_of_next _h).1
    simp
    omega

theorem elementsOf_nil : elementsOf [] = .ok [] := by rw [elementsOf]

/-- The first block, and then the blocks of the lines behind it. -/
theorem elementsOf_cons (l : Line) (ls : List Line) :
    elementsOf (l :: ls) = (do
      let inner ← (next l ls).1.inside.mapM elementsOf
      let first ← (next l ls).1.element inner
      let others ← elementsOf (next l ls).2
      .ok (first :: others)) := by
  rw [elementsOf]
  have unattached := List.mapM_subtype (l := (next l ls).1.inside.attach)
    (f := fun x => elementsOf x.1) (g := elementsOf) (fun _ _ => rfl)
  rw [List.unattach_attach] at unattached
  simp only [unattached]

end Block

end TierLint
