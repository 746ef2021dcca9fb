import TierLint.Text
import TierLint.Syntax.Kind

/-!
# Syntax trees

A tree of tokens and nodes. Tokens carry the text, so the text of a tree is
read off from its tokens in order (`Element.text`), and nothing else stores
text or offsets. The builders at the end leave out tokens that would be empty.
-/

set_option autoImplicit false

namespace TierLint

/-- A token with its text, or a node with its children. -/
inductive Element where
  | token (kind : Kind) (text : Text)
  | node (kind : Kind) (children : List Element)

namespace Element

/-- The kind of a token or node. -/
def kind : Element → Kind
  | .token k _ => k
  | .node k _ => k

/-- The elements directly below a node. -/
def children : Element → List Element
  | .token _ _ => []
  | .node _ es => es

mutual

/-- Decides whether two trees are the same, so that runs of the reader can be
compared with the trees they should give. -/
def decEq : (d e : Element) → Decidable (d = e)
  | .token k t, .token l u => decidable_of_iff (k = l ∧ t = u) (by simp)
  | .token _ _, .node _ _ => .isFalse (by simp)
  | .node _ _, .token _ _ => .isFalse (by simp)
  | .node k es, .node l fs =>
    have := decEqList es fs
    decidable_of_iff (k = l ∧ es = fs) (by simp)

/-- Decides whether two sequences of trees are the same. -/
def decEqList : (es fs : List Element) → Decidable (es = fs)
  | [], [] => .isTrue rfl
  | [], _ :: _ => .isFalse (by simp)
  | _ :: _, [] => .isFalse (by simp)
  | e :: es, f :: fs =>
    have := decEq e f
    have := decEqList es fs
    decidable_of_iff (e = f ∧ es = fs) (by simp)

end

instance : DecidableEq Element := decEq

/-- Tells nodes from tokens. -/
def isNode : Element → Bool
  | .token _ _ => false
  | .node _ _ => true

mutual

/-- The text of a token, or the texts of a node's tokens in order. -/
def text : Element → Text
  | .token _ t => t
  | .node _ es => textOf es

/-- The text of a sequence of elements. -/
def textOf : List Element → Text
  | [] => []
  | e :: es => e.text ++ textOf es

end

@[simp] theorem textOf_nil : textOf [] = [] := rfl

@[simp] theorem textOf_cons (e : Element) (es : List Element) :
    textOf (e :: es) = e.text ++ textOf es := rfl

@[simp] theorem textOf_append (es fs : List Element) :
    textOf (es ++ fs) = textOf es ++ textOf fs := by
  induction es with
  | nil => rfl
  | cons e es ih => simp [ih]

mutual

/-- Number of bytes of the element's text. -/
def byteLength : Element → Nat
  | .token _ t => Text.byteLength t
  | .node _ es => byteLengthOf es

/-- Number of bytes of the texts of a sequence of elements. -/
def byteLengthOf : List Element → Nat
  | [] => 0
  | e :: es => e.byteLength + byteLengthOf es

end

mutual

theorem byteLength_eq : (e : Element) → e.byteLength = Text.byteLength e.text
  | .token _ _ => rfl
  | .node _ es => byteLengthOf_eq es

theorem byteLengthOf_eq : (es : List Element) → byteLengthOf es = Text.byteLength (textOf es)
  | [] => rfl
  | e :: es => by
    rw [byteLengthOf, textOf, Text.byteLength_append, byteLength_eq e, byteLengthOf_eq es]

end

/-- One token of kind `k`, or nothing for the empty text. -/
def tokenUnlessEmpty (k : Kind) (t : Text) : List Element :=
  if t.isEmpty then [] else [.token k t]

@[simp] theorem textOf_tokenUnlessEmpty (k : Kind) (t : Text) :
    textOf (tokenUnlessEmpty k t) = t := by
  cases t <;> simp [tokenUnlessEmpty, text]

/-- White space, if there is any. -/
def spacing (t : Text) : List Element := tokenUnlessEmpty .whitespace t

/-- The text as indentation, a token of kind `k` and trailing white space. -/
def trimmed (k : Kind) (t : Text) : List Element :=
  let body := Text.unindented t
  let core := Text.trimEnd body
  spacing (Text.indentation t) ++ tokenUnlessEmpty k core ++ spacing (body.drop core.length)

end Element

end TierLint
