import TierLint.Unicode.WhiteSpace

/-!
# Text

A text is a list of characters. Documents, lines, words, paths and patterns are
texts, and all scanning is recursion on them. Byte offsets are not stored
anywhere: the offset of a place is the byte length of the text before it, and
the only operation that cuts a text at a byte offset is `splitAtByte`, which
fails when the offset lies inside a character.

Two notions of space meet here. Blank text and trimming go by the Unicode
property `White_Space`; indentation goes by spaces and tabs alone.
-/

set_option autoImplicit false

namespace TierLint

open Unicode

/-- A text as a list of characters. -/
abbrev Text := List Char

namespace Text

/-- Number of bytes of the UTF-8 form. -/
def byteLength (t : Text) : Nat := t.foldr (fun c n => c.utf8Size + n) 0

@[simp] theorem byteLength_nil : byteLength [] = 0 := rfl

@[simp] theorem byteLength_cons (c : Char) (t : Text) :
    byteLength (c :: t) = c.utf8Size + byteLength t := rfl

@[simp] theorem byteLength_append (s t : Text) :
    byteLength (s ++ t) = byteLength s + byteLength t := by
  induction s with
  | nil => simp
  | cons c s ih => rw [List.cons_append, byteLength_cons, byteLength_cons, ih, Nat.add_assoc]

/-- Cuts the text after `n` bytes, or fails if no character ends there. -/
def splitAtByte : Nat → Text → Option (Text × Text)
  | 0, t => some ([], t)
  | _ + 1, [] => none
  | n + 1, c :: t =>
    if c.utf8Size ≤ n + 1 then
      (splitAtByte (n + 1 - c.utf8Size) t).map fun (before, after) => (c :: before, after)
    else
      none

/-- Every character is white space; the empty text is blank. -/
def isBlank (t : Text) : Bool := t.all isWhiteSpace

/-- The text without the characters at its end that satisfy `p`. -/
def dropEndWhile (p : Char → Bool) (t : Text) : Text :=
  t.foldr (fun c rest => if rest.isEmpty && p c then [] else c :: rest) []

/-- The text without white space at its start. -/
def trimStart (t : Text) : Text := t.dropWhile isWhiteSpace

/-- The text without white space at its end. -/
def trimEnd (t : Text) : Text := dropEndWhile isWhiteSpace t

/-- The text without white space at both ends. -/
def trim (t : Text) : Text := trimEnd (trimStart t)

/-- Spaces and tabs indent a line; no other white space does. -/
def isIndentChar (c : Char) : Bool := c == ' ' || c == '\t'

/-- The spaces and tabs at the start of the text. -/
def indentation (t : Text) : Text := t.takeWhile isIndentChar

/-- What follows the indentation. -/
def unindented (t : Text) : Text := t.dropWhile isIndentChar

/-- Number of spaces and tabs at the start of the text. -/
def indent (t : Text) : Nat := (indentation t).length

/-- Number of characters `c` at the start of the text. -/
def runLength (c : Char) (t : Text) : Nat := (t.takeWhile (· == c)).length

/-- What follows the characters `c` at the start of the text. -/
def afterRun (c : Char) (t : Text) : Text := t.dropWhile (· == c)

theorem replicate_runLength_append_afterRun (c : Char) (t : Text) :
    List.replicate (runLength c t) c ++ afterRun c t = t := by
  induction t with
  | nil => rfl
  | cons d t ih =>
    by_cases h : d = c
    · subst h
      simpa [runLength, afterRun, List.replicate_succ] using ih
    · simp [runLength, afterRun, h]

/-- A run whose first character has been read, and what follows it. -/
theorem cons_eq_replicate_append_afterRun (c : Char) (t : Text) :
    c :: t = List.replicate (1 + runLength c t) c ++ afterRun c t := by
  rw [Nat.add_comm, List.replicate_succ, List.cons_append, replicate_runLength_append_afterRun]

theorem afterRun_length_le (c : Char) (t : Text) : (afterRun c t).length ≤ t.length :=
  (List.dropWhile_suffix _).length_le

/-- Puts `t` in front of the first part of a cut, if there is one. -/
def prependTo (t : Text) (cut? : Option (Text × Text)) : Option (Text × Text) :=
  cut?.map fun (before, after) => (t ++ before, after)

@[simp] theorem prependTo_eq_some {t before after : Text} {cut? : Option (Text × Text)} :
    prependTo t cut? = some (before, after) ↔
      ∃ inner, cut? = some (inner, after) ∧ t ++ inner = before := by
  simp [prependTo, Option.map_eq_some_iff]

/-- The first character exists and satisfies `p`. -/
def startsBy (p : Char → Bool) (t : Text) : Bool := t.head?.any p

/-- The last character exists and satisfies `p`. -/
def endsBy (p : Char → Bool) (t : Text) : Bool := t.getLast?.any p

/-- The pieces between the characters `sep`; a text without `sep` is one piece. -/
def splitOn (sep : Char) (t : Text) : List Text :=
  t.foldr
    (fun c pieces =>
      if c == sep then [] :: pieces else (c :: pieces.headD []) :: pieces.tail)
    [[]]

end Text

end TierLint
