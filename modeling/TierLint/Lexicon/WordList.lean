import TierLint.Text
import TierLint.Unicode.Folding
import TierLint.Unicode.Word

/-!
# Word lists

Words are looked for as whole words and without regard to case: a word occurs
between two word boundaries, and its characters match up to simple case folding.
Occurrences are counted from left to right without overlap, and at one place the
first word of the list that fits is taken. A word list may hold the empty word,
which occurs at every boundary except directly behind another occurrence.
-/

set_option autoImplicit false

namespace TierLint

open Unicode

namespace WordList

/-- Takes the word `w`, up to case, from the text behind the character `before`:
the last character taken, and the rest. -/
def take? (before : Option Char) : Text → Text → Option (Option Char × Text)
  | [], t => some (before, t)
  | _ :: _, [] => none
  | d :: w, c :: t => if sameFolded d c then take? (some c) w t else none

/-- The word `w` stands as a whole word at the beginning of the text behind the character
`before`. -/
def standsAt (before : Option Char) (t w : Text) : Bool :=
  isWordBoundary before t.head?
    && (take? before w t).any fun (last, rest) => isWordBoundary last rest.head?

/-- The first word of the list that stands at the beginning of the text behind the character
`before`. -/
def first? (words : List Text) (before : Option Char) (t : Text) : Option Text :=
  words.find? (standsAt before t)

/-- The number of occurrences in the text behind the character `before`, apart from one that the
first `taken` characters belong to; `matched` tells whether an occurrence ends in front of the
text. -/
def countFrom (words : List Text) (before : Option Char) (matched : Bool) :
    (taken : Nat) → Text → Nat
  | 0, [] => if matched || (first? words before []).isNone then 0 else 1
  | _ + 1, [] => 0
  | taken + 1, c :: t => countFrom words (some c) (taken == 0) taken t
  | 0, c :: t =>
    match first? words before (c :: t) with
    | none => countFrom words (some c) false 0 t
    -- the empty word takes nothing, so the search goes on behind the next character
    | some [] => countFrom words (some c) false 0 t + if matched then 0 else 1
    | some (_ :: w) => countFrom words (some c) w.isEmpty w.length t + 1

/-- The number of occurrences of words of the list in a text. -/
def count (words : List Text) (t : Text) : Nat := countFrom words none false 0 t

/-- Some word of the list occurs in the text behind the character `before`. -/
def occursFrom (words : List Text) (before : Option Char) : Text → Bool
  | [] => (first? words before []).isSome
  | c :: t => (first? words before (c :: t)).isSome || occursFrom words (some c) t

/-- Some word of the list occurs in the text. -/
def occurs (words : List Text) (t : Text) : Bool := occursFrom words none t

/-- The text begins with some word of the list and white space behind it. -/
def opens (words : List Text) (t : Text) : Bool :=
  words.any fun w =>
    match take? none w t with
    | some (_, c :: _) => isWhiteSpace c
    | _ => false

end WordList

end TierLint
