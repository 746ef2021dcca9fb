import TierLint.Lexicon.WordList
import TierLint.Settings.Basic
import TierLint.Unicode.Lowercase

/-!
# Lexicon

The word lists of the rules on voice and tone. A text is directive if it opens
with a directive verb, which is compared with the letters and hyphens of its
first word in lowercase.
-/

set_option autoImplicit false

namespace TierLint

open Text Unicode

/-- The word lists of a vocabulary, verbs in lowercase. -/
structure Lexicon where
  directiveVerbs : List Text
  modalVerbs : List Text
  subjectiveWords : List Text
  narrativeOpeners : List Text

namespace Lexicon

/-- The lexicon of a vocabulary. -/
def ofVocabulary (v : Vocabulary) : Lexicon where
  directiveVerbs := v.directiveVerbs.map lowercase
  modalVerbs := v.modalVerbs
  subjectiveWords := v.subjectiveWords
  narrativeOpeners := v.narrativeOpeners

/-- The word is a directive verb. -/
def isDirective (x : Lexicon) (word : Text) : Bool := x.directiveVerbs.contains word

/-- Number of modal verbs in the text. -/
def countModal (x : Lexicon) (t : Text) : Nat := WordList.count x.modalVerbs t

/-- The text holds a modal verb. -/
def hasModal (x : Lexicon) (t : Text) : Bool := WordList.occurs x.modalVerbs t

/-- Number of subjective words in the text. -/
def countSubjective (x : Lexicon) (t : Text) : Nat := WordList.count x.subjectiveWords t

/-- The text holds a subjective word. -/
def hasSubjective (x : Lexicon) (t : Text) : Bool := WordList.occurs x.subjectiveWords t

/-- The text opens with a narrative pronoun or article. -/
def startsNarrative (x : Lexicon) (t : Text) : Bool := WordList.opens x.narrativeOpeners t

/-- The text behind a list marker it may begin with. -/
def withoutMarker : Text → Text
  | c :: rest =>
    if (c == '-' || c == '*' || c == '+') && startsBy isWhiteSpace rest then trimStart rest
    else c :: rest
  | [] => []

/-- The letters and hyphens of the first word, in lowercase. -/
def firstWord (t : Text) : Text :=
  let word := (withoutMarker (trim t)).takeWhile (!isWhiteSpace ·)
  (word.filter fun c => c.isAlpha || c == '-').map Char.toLower

end Lexicon

end TierLint
