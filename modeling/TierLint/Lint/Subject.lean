import TierLint.Lexicon.Basic
import TierLint.Lint.Diagnostic
import TierLint.Syntax.TextRun
import TierLint.Syntax.Visit
import TierLint.Tier.Classifier

/-!
# Subjects of inspection

What a rule looks at: a document with its text, tree and path, and the settings
and tables that apply to it. The searches that several rules share are here.
-/

set_option autoImplicit false

namespace TierLint

/-- A document under inspection. -/
structure Subject where
  text : Text
  tree : Element
  path : Text
  settings : Settings
  lexicon : Lexicon
  classifier : Classifier

namespace Subject

/-- The tier of the document. -/
def tier (s : Subject) : Tier := s.classifier.classify s.path

/-- The location of an element. -/
def locate (s : Subject) (v : Visit) : Location := Location.ofRange s.text v.start v.stop

/-- The text runs that are not code. -/
def proseRuns (s : Subject) : List TextRun := s.tree.textRuns.filter (!·.inCode)

/-- The paragraphs that are not blank, with their trimmed prose. -/
def paragraphs (s : Subject) : List (Visit × Text) :=
  ((s.tree.nodesOf .paragraph).map fun v => (v, Text.trim v.element.prose)).filter
    (!·.2.isEmpty)

/-- The headings, with the terms they are looked up by. -/
def headings (s : Subject) : List (Visit × Text) :=
  (s.tree.nodesOf .heading).map fun v => (v, v.element.headingTerm)

/-- The terms that no heading has, in their order. -/
def missingHeadings (s : Subject) (terms : List Text) : List Text :=
  let found := s.headings.map (·.2)
  terms.filter fun term => !found.contains (Unicode.lowercase term)

end Subject

end TierLint
