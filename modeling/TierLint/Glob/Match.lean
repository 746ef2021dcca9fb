import TierLint.Glob.Reach
import TierLint.Glob.Token

/-!
# Matching globs

Globs are matched against the UTF-8 bytes of a path, from the first byte to the
last, without regard to the case of ASCII letters. So a wildcard or class takes
one byte, not one character.

A token leads from the positions that have been reached to all positions that
it can end at; a glob matches if its tokens lead from the start of the path to
its end.
-/

set_option autoImplicit false

namespace TierLint

/-- The UTF-8 form of a text. -/
def Text.bytes (t : Text) : List UInt8 := t.flatMap String.utf8EncodeChar

namespace Glob

/-- The byte that separates path segments. -/
def slash : UInt8 := 0x2F

/-- The byte, with ASCII capital letters in lowercase. -/
def foldByte (b : UInt8) : UInt8 := if 0x41 ≤ b && b ≤ 0x5A then b + 0x20 else b

/-- The byte, with ASCII letters in the other case. -/
def otherCase (b : UInt8) : UInt8 :=
  if 0x41 ≤ b && b ≤ 0x5A then b + 0x20
  else if 0x61 ≤ b && b ≤ 0x7A then b - 0x20
  else b

/-- The byte ranges that a range of characters stands for. A range runs from the
last byte of its first character to the first byte of its last one; the other
bytes of both characters are members by themselves. -/
def byteRanges (first last : Char) : List (UInt8 × UInt8) :=
  let single (bs : List UInt8) := bs.map fun b => (b, b)
  let xs := String.utf8EncodeChar first
  let ys := String.utf8EncodeChar last
  if first == last then single xs
  else
    single xs.dropLast ++ [(xs.getLast?.getD 0, ys.head?.getD 0)] ++ single ys.tail

/-- The byte is a member of the class, in one case or the other. -/
def classHolds (ranges : List (Char × Char)) (b : UInt8) : Bool :=
  ranges.any fun (first, last) =>
    (byteRanges first last).any fun (x, y) =>
      (x ≤ b && b ≤ y) || (x ≤ otherCase b && otherCase b ≤ y)

mutual

/-- The token stands for nothing at all: a group of alternatives without any content. -/
def Token.isVoid : Token → Bool
  | .alternatives branches => Token.areVoid branches
  | _ => false

/-- All tokens of the branch are void. -/
def Token.isVoidBranch : List Token → Bool
  | [] => true
  | t :: ts => t.isVoid && Token.isVoidBranch ts

/-- All branches are void. -/
def Token.areVoid : List (List Token) → Bool
  | [] => true
  | b :: bs => Token.isVoidBranch b && Token.areVoid bs

end

mutual

/-- The positions that the token leads to. -/
def Token.advance (r : Reach) : Token → Reach
  | .literal c => (String.utf8EncodeChar c).foldl (fun r b => r.overOne (foldByte b == foldByte ·)) r
  | .one => r.overOne (· != slash)
  | .many => r.overMany (· != slash)
  | .leadingDirs => r.union (r.overUpTo (· == slash))
  | .innerDirs =>
    let below := r.overOne (· == slash)
    below.union (below.overUpTo (· == slash))
  | .belowDir => (r.overOne (· == slash)).overMany fun _ => true
  | .oneOf negated ranges => r.overOne (classHolds ranges · != negated)
  | .alternatives branches =>
    if Token.areVoid branches then r else Token.advanceAny r branches

/-- The positions that the tokens lead to, one behind the other. -/
def Token.advanceAll (r : Reach) : List Token → Reach
  | [] => r
  | t :: ts => if r.isNowhere then r else Token.advanceAll (t.advance r) ts

/-- The positions that one of the branches leads to; a void branch is no branch. -/
def Token.advanceAny (r : Reach) : List (List Token) → Reach
  | [] => r.clear
  | b :: bs =>
    if Token.isVoidBranch b then Token.advanceAny r bs
    else (Token.advanceAll r b).union (Token.advanceAny r bs)

end

end Glob

/-- The glob matches the text. Leading directories alone match everything. -/
def Glob.accepts (g : Glob) (t : Text) : Bool :=
  match g.tokens with
  -- followed by other tokens, leading directories end at a slash or stand for nothing
  | [.leadingDirs] => true
  | tokens => (Glob.Token.advanceAll (.ofBytes true t.bytes) tokens).reachesEnd

end TierLint
