import TierLint.Lint.Linter
import TierLint.Proofs.Document.Quoted
import TierLint.Proofs.Lint.Correspondence

/-!
# Rules see through block quotes

Put a quote marker and a blank in front of every line of a text. The tree is then one block quote
around the blocks of the text, white space and quote markers apart (`Document.parse_blockQuoted`).
So if the text has no front matter, which is not looked for in a quote, its headings, its text runs
and what the rules report, up to columns, stay the same; only the rule on line lengths may differ.
-/

set_option autoImplicit false

namespace TierLint

open Element

/-- Both texts have the same line behind them. -/
def SameLine (b b' : Text) : Prop := (Position.start.past b).line = (Position.start.past b').line

theorem tracks_sameLine : Tracks .fillersOnly SameLine where
  same t h := by
    rw [SameLine, Position.past_append, Position.past_append, Position.line_past _ t,
      Position.line_past _ t, h]
  filler _ _ _ t ht h := by
    rwa [SameLine, Position.past_append, Position.line_past _ t, List.count_eq_zero_of_not_mem ht]
  filler' _ _ _ t ht h := by
    rwa [SameLine, Position.past_append, Position.line_past _ t, List.count_eq_zero_of_not_mem ht]
  lineEnd free := by cases free

/-- What is shown of a diagnostic apart from its column: its rule, message and line. -/
def Diagnostic.lineView (d : Diagnostic) : String × Text × Option Nat :=
  (d.code, d.message, d.location?.map (·.position.line))

theorem Diagnostic.Like.lineView_eq {d e : Diagnostic}
    (h : Diagnostic.Like (fun p q => p.line = q.line) d e) : d.lineView = e.lineView := by
  have line : d.location?.map (·.position.line) = e.location?.map (·.position.line) :=
    h.map_location_eq fun _ _ same => same
  rw [lineView, lineView, h.code, h.message, line]

namespace Document

variable {es inner : List Element} {t t' : Text}

/-- The nodes above what stands in a quote around the whole document. -/
def aboveQuote (inner : List Element) : List Element :=
  above [.node .blockQuote inner] ++ [.node .blockQuote inner]

theorem nodesOf_quote {k : Kind} (hk : k.isSought = true) (inner : List Element) :
    (tree [.node .blockQuote inner]).nodesOf k = nodesBehind k (aboveQuote inner) [] inner := by
  rw [nodesOf_tree (Kind.ne_of_isSought hk rfl) (Kind.ne_of_isSought hk rfl), nodesBehind_node,
    if_neg (Kind.ne_of_isSought hk rfl), nodesBehind_nil, List.append_nil, List.nil_append]
  rfl

theorem textRuns_quote (inner : List Element) :
    (tree [.node .blockQuote inner]).textRuns =
      TextRun.runsFromAll (aboveQuote inner) (Text.byteLength []) none inner := by
  rw [textRuns_tree, TextRun.runsFromAll]
  simp [TextRun.effect, TextRun.Open.finish, TextRun.runsFrom, TextRun.runsFromAll, aboveQuote]

theorem corresponds_quote (alike : Alike .fillersOnly false es inner) (ht : textOf es = t)
    (ht' : textOf inner = t') (l : Linter) (path : Text) :
    Subject.Corresponds .fillersOnly (fun p q => p.line = q.line) (l.subject path t (tree es))
      (l.subject path t' (tree [.node .blockQuote inner])) where
  settings := rfl
  lexicon := rfl
  tier := rfl
  words free := by cases free
  nodes hk := by
    rw [Linter.subject, Linter.subject, nodesOf_quote hk,
      nodesOf_tree (Kind.ne_of_isSought hk rfl) (Kind.ne_of_isSought hk rfl)]
    exact Subject.nodesBehind_like tracks_sameLine alike rfl (ht ▸ List.prefix_refl _)
      (ht' ▸ List.prefix_refl _) (fun _ _ same => same) _ _ _
  runs := by
    rw [Subject.proseRuns, Subject.proseRuns, Linter.subject, Linter.subject, textRuns_quote,
      textRuns_tree]
    exact Subject.proseRunsFromAll_like tracks_sameLine alike rfl (ht ▸ List.prefix_refl _)
      (ht' ▸ List.prefix_refl _) (fun _ _ same => same) rfl

theorem headingTerms_quote (alike : Alike .fillersOnly false es inner) :
    ((tree [.node .blockQuote inner]).nodesOf .heading).map (·.element.headingTerm) =
      ((tree es).nodesOf .heading).map (·.element.headingTerm) := by
  rw [nodesOf_quote rfl, nodesOf_tree (by decide) (by decide)]
  refine (map_eq_of_forall₂ (fun v v' ⟨_, last, alike⟩ => ?_) (alike.nodesBehind tracks_sameLine
    .heading rfl (List.prefix_refl _) (List.prefix_refl _) (above es) (aboveQuote inner))).symm
  rw [headingTerm, headingTerm, (Subject.Corresponds.rebroken_prose alike).eq_of_strict]

theorem runs_quote (alike : Alike .fillersOnly false es inner) :
    (tree [.node .blockQuote inner]).textRuns.map (fun r => (r.text, r.inCode)) =
      (tree es).textRuns.map fun r => (r.text, r.inCode) := by
  rw [textRuns_quote, textRuns_tree]
  have code : (above es).any (·.kind.isCode) = (aboveQuote inner).any (·.kind.isCode) := rfl
  refine (map_eq_of_forall₂ (fun r r' like => ?_) (TextRun.runsFromAll_like tracks_sameLine alike rfl
    (List.prefix_refl _) (List.prefix_refl _) .none code)).symm
  rw [like.text, like.inCode]

/-- **Transparency of quotes.** A text whose lines give some blocks is one quote as soon as every
line has a quote marker and a space in front, and inside the quote stand the same blocks, apart from
white space and markers. Without front matter the quoted text also has the same heading terms, the
same text runs and, for every rule but the one on line lengths, the same findings in the same
lines. -/
theorem parse_blockQuoted (ne : t ≠ []) (h : Block.elementsOf (Line.ofText t) = .ok es) :
    ∃ inner,
      parse t.blockQuoted = .ok (.node .root [.node .document [.node .blockQuote inner]]) ∧
      bareOf inner = bareOf es ∧
      (FrontMatter.read? (Line.ofText t) = none →
        let tree : Element := .node .root [.node .document es]
        let quoted : Element := .node .root [.node .document [.node .blockQuote inner]]
        parse t = .ok tree ∧
        (quoted.nodesOf .heading).map (·.element.headingTerm) =
          (tree.nodesOf .heading).map (·.element.headingTerm) ∧
        quoted.textRuns.map (fun r => (r.text, r.inCode)) =
          tree.textRuns.map (fun r => (r.text, r.inCode)) ∧
        ∀ (l : Linter) (path : Text) (r : Rule), r ≠ .lineLength →
          (r.check (l.subject path t.blockQuoted quoted)).map (·.lineView) =
            (r.check (l.subject path t tree)).map (·.lineView)) := by
  obtain ⟨inner, hinner, alike⟩ := elements_blockQuoted ne h
  have ht : textOf es = t := by rw [Block.textOf_of_elementsOf h, Line.textOf_ofText]
  have ht' : textOf inner = t.blockQuoted := by
    simpa [Element.text] using textOf_of_elements hinner
  refine ⟨inner, parse_eq_ok_iff.2 ⟨_, hinner, rfl⟩, (alike.bareOf_eq rfl).symm, fun plain => ?_⟩
  have whole : elements (Line.ofText t) = .ok es := by rw [elements, plain, h]
  refine ⟨parse_eq_ok_iff.2 ⟨_, whole, rfl⟩, headingTerms_quote alike, runs_quote alike,
    fun l path r hr => ?_⟩
  exact (map_eq_of_forall₂ (fun _ _ like => like.lineView_eq)
    ((corresponds_quote alike ht ht' l path).check hr)).symm

/-- A list item of two lines, the second one indented. -/
theorem parse_blockQuoted_item :
    ∃ es inner, Block.elementsOf (Line.ofText "- a\n  b".toList) = .ok es ∧
      es = [.node .list [.node .listItem
        [.token .listMarker ['-'], .token .whitespace [' '],
         .node .paragraph [.token .text ['a'], .token .newline ['\n'],
           .token .whitespace [' ', ' '], .token .text ['b']]]]] ∧
      FrontMatter.read? (Line.ofText "- a\n  b".toList) = none ∧
      parse "> - a\n>   b".toList =
        .ok (.node .root [.node .document [.node .blockQuote inner]]) ∧
      bareOf inner = bareOf es ∧
      ∀ (l : Linter) (path : Text) (r : Rule), r ≠ .lineLength →
        (r.check (l.subject path "> - a\n>   b".toList
            (.node .root [.node .document [.node .blockQuote inner]]))).map (·.lineView) =
          (r.check (l.subject path "- a\n  b".toList
            (.node .root [.node .document es]))).map (·.lineView) := by
  have parsed : Block.elementsOf (Line.ofText "- a\n  b".toList) =
      .ok [.node .list [.node .listItem
        [.token .listMarker ['-'], .token .whitespace [' '],
         .node .paragraph [.token .text ['a'], .token .newline ['\n'],
           .token .whitespace [' ', ' '], .token .text ['b']]]]] := by decide +kernel
  have plain : FrontMatter.read? (Line.ofText "- a\n  b".toList) = none := by decide +kernel
  obtain ⟨inner, quoted, bare, same⟩ := parse_blockQuoted (List.cons_ne_nil _ _) parsed
  obtain ⟨-, -, -, checks⟩ := same plain
  exact ⟨_, inner, parsed, rfl, plain, quoted, bare, checks⟩

end Document

end TierLint
