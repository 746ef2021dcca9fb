import TierLint.Syntax.Element

/-!
# Visits

All elements of a tree in document order, a node before its children, each with
the byte offset where it starts and the nodes above it from the root down.
Rows, searches by kind and text ranges are read off from this list.
-/

set_option autoImplicit false

namespace TierLint

/-- An element of a tree, with the nodes above it from the root down to its
parent, and the byte offset where it starts. -/
structure Visit where
  ancestors : List Element
  start : Nat
  element : Element
  deriving DecidableEq

namespace Visit

/-- The byte offset where the element ends. -/
def stop (v : Visit) : Nat := v.start + v.element.byteLength

/-- The number of nodes above the element. -/
def depth (v : Visit) : Nat := v.ancestors.length

/-- Some node above the element holds literal code. -/
def inCode (v : Visit) : Bool := v.ancestors.any (·.kind.isCode)

end Visit

namespace Element

mutual

/-- The visits of `e` and all below it, where `e` stands at byte `start` under `above`. -/
def visitsFrom (above : List Element) (start : Nat) : Element → List Visit
  | .token k t => [⟨above, start, .token k t⟩]
  | .node k es => ⟨above, start, .node k es⟩ :: visitsFromAll (above ++ [.node k es]) start es

/-- The visits of consecutive elements, the first of which stands at byte `start`. -/
def visitsFromAll (above : List Element) (start : Nat) : List Element → List Visit
  | [] => []
  | e :: es => visitsFrom above start e ++ visitsFromAll above (start + e.byteLength) es

end

/-- The visits of a tree. -/
def visits (tree : Element) : List Visit := visitsFrom [] 0 tree

/-- The elements of one kind. -/
def visitsOf (tree : Element) (k : Kind) : List Visit :=
  tree.visits.filter (·.element.kind == k)

/-- The nodes of one kind. -/
def nodesOf (tree : Element) (k : Kind) : List Visit :=
  (tree.visitsOf k).filter (·.element.isNode)

end Element

end TierLint
