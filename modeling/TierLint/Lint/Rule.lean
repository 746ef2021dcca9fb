import TierLint.Lexicon.Emoji
import TierLint.Lint.LineLength
import TierLint.Lint.Subject

/-!
# Rules

Each rule applies to the documents of one tier and reports nothing for any
other. The strict rules look at structure and voice, the others give advice.
-/

set_option autoImplicit false

namespace TierLint

open Text

/-- The rules. -/
inductive Rule where
  /-- The canonical headings are all there, in their order. -/
  | headingOrder
  /-- There is no strong emphasis. -/
  | noStrong
  /-- There are no emoji outside of code. -/
  | noEmoji
  /-- There are no modal verbs outside of code. -/
  | noModalVerbs
  /-- Paragraphs are directives. -/
  | noNarrative
  /-- Lines are not too long. -/
  | lineLength
  /-- A document that has most governance headings has all of them. -/
  | moderateHeadings
  /-- Paragraphs hold little hedging and no strong emphasis. -/
  | moderateMarkdown
  /-- Paragraphs are not full of hedging. -/
  | lightMarkdown
  deriving DecidableEq

namespace Rule

/-- All rules, strict ones first. -/
def all : List Rule :=
  [headingOrder, noStrong, noEmoji, noModalVerbs, noNarrative, lineLength, moderateHeadings,
   moderateMarkdown, lightMarkdown]

/-- The name of a rule. -/
def name : Rule → String
  | headingOrder => "heading-order"
  | noStrong => "no-strong"
  | noEmoji => "no-emoji"
  | noModalVerbs => "no-modal-verbs"
  | noNarrative => "no-narrative"
  | lineLength => "line-length"
  | moderateHeadings => "moderate-headings"
  | moderateMarkdown => "moderate-markdown"
  | lightMarkdown => "light-markdown"

/-- The rule with the given name. -/
def ofName? (s : String) : Option Rule := all.find? (·.name == s)

/-- The tier of the documents that a rule applies to. -/
def tier : Rule → Tier
  | moderateHeadings | moderateMarkdown => .moderate
  | lightMarkdown => .light
  | _ => .strict

/-- The severity of a rule's findings. -/
def severity (r : Rule) : Severity := r.tier.severity

/-- Terms with commas between them. -/
def commaSeparated (terms : List Text) : Text := [',', ' '].intercalate terms

/-- The headings that are in the vocabulary, with the first place of their term there. -/
def rankedHeadings (terms : List Text) (headings : List (Visit × Text)) : List (Nat × Visit) :=
  headings.filterMap fun (v, term) =>
    (terms.findIdx? fun t => Unicode.lowercase t == term).map fun i => (i, v)

/-- The first element whose rank is less than the rank in front of it. -/
def firstInversion? (last : Nat) : List (Nat × Visit) → Option Visit
  | [] => none
  | (i, v) :: rest => if i < last then some v else firstInversion? i rest

/-- Findings on the order of canonical headings, and on missing ones. -/
def headingOrderFindings (s : Subject) : List Finding :=
  let terms := s.settings.vocabulary.canonicalHeadings
  let inversion := firstInversion? 0 (rankedHeadings terms s.headings)
  let missing := s.missingHeadings terms
  (inversion.toList.map fun v =>
    ⟨some (s.locate v),
     "Headings must follow the canonical order defined for LLM-facing files".toList⟩)
    ++ if missing.isEmpty then []
       else [⟨none, "Missing required headings: ".toList ++ commaSeparated missing⟩]

/-- Findings on strong emphasis. -/
def noStrongFindings (s : Subject) : List Finding :=
  (s.tree.nodesOf .strong).map fun v =>
    ⟨some (s.locate v), "Bold/strong emphasis is prohibited in LLM-facing files".toList⟩

/-- Findings on the text runs that are not code and satisfy `flagged`. -/
def runFindings (s : Subject) (flagged : Text → Bool) (message : Text) : List Finding :=
  (s.proseRuns.filter (flagged ·.text)).map fun run =>
    ⟨some (Location.ofRange s.text run.start run.stop), message⟩

/-- Findings on the paragraphs that satisfy `flagged`. -/
def paragraphFindings (s : Subject) (flagged : Visit × Text → Bool) (message : Text) :
    List Finding :=
  (s.paragraphs.filter flagged).map fun (v, _) => ⟨some (s.locate v), message⟩

/-- The text is a directive: it opens with a directive verb and holds neither
hedging nor a narrative opening. -/
def isDirective (x : Lexicon) (t : Text) : Bool :=
  x.isDirective (Lexicon.firstWord t) && !x.hasSubjective t && !x.hasModal t
    && !x.startsNarrative t

/-- The text `t` holds the text `s`. -/
def holds (s : Text) : Text → Bool
  | [] => s.isEmpty
  | c :: t => s.isPrefixOf (c :: t) || holds s t

/-- The paragraph has strong emphasis, as markup or left as literal delimiters in its prose. -/
def hasStrong (paragraph : Element) (prose : Text) : Bool :=
  !(paragraph.nodesOf .strong).isEmpty || holds ['*', '*'] prose || holds ['_', '_'] prose

/-- Findings on overlong lines. -/
def lineLengthFindings (s : Subject) : List Finding :=
  let limit := s.settings.maxLineLength
  (LineLength.locations limit s.text).map fun l =>
    ⟨some l, s!"Lines must be ≤ {limit} characters in LLM-facing files".toList⟩

/-- Advice on governance headings. A document that lacks more of them than the
threshold says does not aim at them, and gets none. -/
def moderateHeadingsFindings (s : Subject) : List Finding :=
  let missing := s.missingHeadings s.settings.vocabulary.governanceHeadings
  if missing.isEmpty || s.settings.thresholds.moderateMaxMissingHeadings < missing.length then []
  else [⟨none, "Consider adding these governance headings: ".toList ++ commaSeparated missing⟩]

/-- What a rule finds in a document of its tier. -/
def findings (s : Subject) : Rule → List Finding
  | headingOrder => headingOrderFindings s
  | noStrong => noStrongFindings s
  | noEmoji => runFindings s Emoji.occurs "Emojis are prohibited in LLM-facing files".toList
  | noModalVerbs =>
    runFindings s s.lexicon.hasModal
      "Modal verbs (may/might/could) are prohibited in body content".toList
  | noNarrative =>
    paragraphFindings s (fun (_, t) => !isDirective s.lexicon t)
      ("Paragraph must be imperative/directive; remove narrative or subjective language".toList)
  | lineLength => lineLengthFindings s
  | moderateHeadings => moderateHeadingsFindings s
  | moderateMarkdown =>
    paragraphFindings s
      (fun (v, t) =>
        s.settings.thresholds.moderateMaxSubjective < s.lexicon.countSubjective t
          || s.settings.thresholds.moderateMaxModal < s.lexicon.countModal t
          || hasStrong v.element t)
      "Governance files should use direct, professional language".toList
  | lightMarkdown =>
    paragraphFindings s
      (fun (_, t) =>
        s.settings.thresholds.lightMaxSubjective < s.lexicon.countSubjective t
          || s.settings.thresholds.lightMaxModal < s.lexicon.countModal t)
      "Consider using more direct language".toList

/-- A finding of the rule as a diagnostic. -/
def report (r : Rule) (f : Finding) : Diagnostic := ⟨r.name, r.severity, f.location?, f.message⟩

/-- What the rule reports on a document; nothing if the document is of another tier. -/
def check (r : Rule) (s : Subject) : List Diagnostic :=
  if s.tier = r.tier then (r.findings s).map r.report else []

end Rule

end TierLint
