import TierLint.Document
import TierLint.Lint.Rule

/-!
# Linters

A linter is built from settings and a root, which fails only if a pattern is no
glob: limits on the size of what is compiled, for tiers and word lists alike, are
not modelled. It runs its rules in order on a document; diagnostics keep the order
of the rules, and within a rule the order of the document.
-/

set_option autoImplicit false

namespace TierLint

/-- Settings in the form that inspection needs, and the rules to run. -/
structure Linter where
  settings : Settings
  classifier : Classifier
  lexicon : Lexicon
  rules : List Rule

namespace Linter

/-- Builds a linter with all rules. The word lists always compile: words are taken literally, and
the failure for lists too large to be compiled is left out. -/
def build (settings : Settings) (root : Text) : Except PatternError Linter := do
  let classifier ← Classifier.build root settings.tiers
  .ok ⟨settings, classifier, Lexicon.ofVocabulary settings.vocabulary, Rule.all⟩

/-- Builds a linter with all rules and the root of the settings, the empty path
if they have none. -/
def buildAtOwnRoot (settings : Settings) : Except PatternError Linter :=
  build settings (settings.root?.getD [])

/-- The tier of a path. -/
def classify (l : Linter) (path : Text) : Tier := l.classifier.classify path

/-- The document with the given text, tree and path as the linter sees it. -/
def subject (l : Linter) (path text : Text) (tree : Element) : Subject :=
  ⟨text, tree, path, l.settings, l.lexicon, l.classifier⟩

/-- Runs the rules on a document whose tree is known. -/
def inspect (l : Linter) (path text : Text) (tree : Element) : List Diagnostic :=
  l.rules.flatMap (·.check (l.subject path text tree))

/-- Parses a document and runs the rules on it. -/
def lint (l : Linter) (path text : Text) : Except ParseError (List Diagnostic) :=
  (Document.parse text).map (l.inspect path text)

end Linter

end TierLint
