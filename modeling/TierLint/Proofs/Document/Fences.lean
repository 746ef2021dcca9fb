import TierLint.Proofs.Block.Fences
import TierLint.Proofs.Block.Locality
import TierLint.Proofs.Document.Origin

/-!
# Fenced code in documents

Every code block of a document that begins with an opening fence is one of the blocks that parsing
comes to, with exact fences, and one without a closing fence is the last in its container
(`Document.exactFences_of_parse`).

One thing depends on the white space in the text. A closing fence is recognised behind white space of
any kind; behind other than spaces and tabs its node has an empty marker, and the run is written as
white space (`Document.closing_fence_behind_no_break_space`).
-/

set_option autoImplicit false

namespace TierLint

open Element List Text

namespace Document

variable {t : Text} {tree : Element} {b : FencedCode} {back : List Element}

/-- The block of the document has exact fences. The elements `back` are those behind it in its
container. -/
structure FencesIn (t : Text) (back : List Element) (b : FencedCode) : Prop where
  /-- It is one of the blocks that parsing comes to. -/
  found : ∃ l ls, Block.LeadsTo (body t) (l :: ls) ∧ (Block.next l ls).1 = .fencedCode b
  exact : b.Exact
  /-- Without a closing fence it goes on to the end of its container. -/
  unclosed : b.closing? = none → back = []
  /-- A closing fence is written as one exactly if it stands behind spaces and tabs only. -/
  written : ∀ k ∈ b.closing?,
    (b.fence.WrittenAs (b.closingElements k) ↔ trimStart k.content = unindented k.content)

/-- All code blocks in the tree of the text that begin with an opening fence have exact fences. -/
def ExactFences (t : Text) (tree : Element) : Prop :=
  ∀ v ∈ tree.visits, ∀ front xs ys back,
    v.element.children = front ++ .node .codeBlock (.node .codeFenceOpen xs :: ys) :: back →
    ∃ b : FencedCode, .node .codeBlock (.node .codeFenceOpen xs :: ys) = b.element ∧
      FencesIn t back b

/-- **Exact fences.** A fenced code block begins with a run of three or more backticks or tildes,
holds no closing fence, and ends with one or with its container; the closing fence is written as one
exactly if only spaces and tabs stand in front of it. -/
theorem exactFences_of_parse (h : parse t = .ok tree) : ExactFences t tree := by
  intro v hv front xs ys back eq
  obtain ⟨l, ls, leads, ok, behind⟩ :=
    exists_block_of_children h hv eq rfl ⟨rfl, rfl, nofun, nofun⟩
  obtain ⟨inner, -, he⟩ := Block.tree_eq_ok_iff.1 ok
  obtain ⟨b, next, same⟩ := Block.fencedCode_of_element he
  have read := Block.fencedCode_of_next next
  have exact := FencedCode.exact_of_read? read
  refine ⟨b, same, ?_⟩
  constructor
  case found => exact ⟨l, ls, leads, next⟩
  case exact => exact exact
  case unclosed =>
    intro none
    -- an open block takes all lines of its container
    rw [FencedCode.rest_eq_nil read none, Block.elementsOf_nil] at behind
    cases behind
    rfl
  case written =>
    intro k mem
    exact FencedCode.writtenAs_iff exact.proper (FencedCode.closedBy_of_read? read mem)

/-- A closed block in a quote, with a shorter fence inside, and a block without a closing fence. -/
theorem exactFences_of_parse_quoted :
    let inside : List Element :=
      [.node .codeFenceOpen
        [.token .blockQuoteMarker ['>'], .token .whitespace [' '],
         .token .codeFenceMarker ['`', '`', '`', '`'], .token .newline ['\n']],
       .node .codeContent
        [.token .blockQuoteMarker ['>'], .token .whitespace [' '],
         .token .text "```".toList, .token .newline ['\n']],
       .node .codeFenceClose
        [.token .blockQuoteMarker ['>'], .token .whitespace [' '], .token .whitespace [' '],
         .token .codeFenceMarker "`````".toList, .token .newline ['\n']]]
    let tree := Document.tree
      [.node .blockQuote [.node .codeBlock inside],
       .node .codeBlock [.node .codeFenceOpen
        [.token .codeFenceMarker "~~~".toList, .token .codeInfo "a`".toList,
         .token .newline ['\n']]]]
    ExactFences "> ````\n> ```\n>  `````\n~~~a`\n".toList tree ∧
      ∃ b : FencedCode, .node .codeBlock inside = b.element ∧ b.Exact := by
  intro inside tree
  have fences : ExactFences "> ````\n> ```\n>  `````\n~~~a`\n".toList tree :=
    exactFences_of_parse (by decide +kernel)
  have quote : ⟨_, _, .node .blockQuote [.node .codeBlock inside]⟩ ∈ tree.visits :=
    mem_cons_of_mem _ (mem_cons_of_mem _ mem_cons_self)
  obtain ⟨b, same, found⟩ := fences _ quote [] _ _ [] rfl
  exact ⟨fences, b, same, found.exact⟩

/-- A closing fence behind a no-break space has an empty marker: it closes the block, but is written
as white space. -/
theorem closing_fence_behind_no_break_space :
    let closing : List Element :=
      [.token .codeFenceMarker [], .token .whitespace "\u00a0```".toList]
    parse "```\n\u00a0```\n".toList = .ok (Document.tree
        [.node .codeBlock
          [.node .codeFenceOpen [.token .codeFenceMarker "```".toList, .token .newline ['\n']],
           .node .codeFenceClose (closing ++ [.token .newline ['\n']])]]) ∧
      ∀ f : Fence, 3 ≤ f.length → ¬f.WrittenAs closing := by
  refine ⟨by decide +kernel, ?_⟩
  intro f long written
  obtain ⟨gap, n, behind, eq, atLeast, -, -⟩ := written
  have empty := FencedCode.marker_of_spacing (a := []) (c := "\u00a0```".toList) (s := []) eq
  have zero := congrArg List.length empty
  rw [length_replicate, length_nil] at zero
  omega

end Document

end TierLint
