import TierLint.Proofs.Document.Prefixed

/-!
# Quoted documents

A text with a quote marker and a blank in front of every line is one block quote around its lines,
and these are the lines of the text with something pending (`Document.parse_blockQuoted`). So what
stands inside the quote is alike to the blocks of the text.
-/

set_option autoImplicit false

namespace TierLint

open Element

/-- The text with a quote marker and a blank in front of every line. -/
def Text.blockQuoted (t : Text) : Text := (Line.ofText t).flatMap fun l => '>' :: ' ' :: l.text

namespace Line

/-! ## Lines of a quoted text -/

/-- The line with a quote marker and a blank in front of its content. -/
def quoted (l : Line) : Line := { l with content := '>' :: ' ' :: l.content }

/-- The line with a quote marker and a blank moved aside. -/
def unquoted (l : Line) : Line := { l with pending := ['>', ' '] }

theorem cut_map_quoted {ls : List Line} (cut : Cut ls) : Cut (ls.map quoted) :=
  cut_map_behind (p := ['>', ' ']) (by decide) cut

theorem ofText_blockQuoted (t : Text) : ofText t.blockQuoted = (ofText t).map quoted := by
  have cut := cut_ofText t
  have text : t.blockQuoted = textOf ((ofText t).map quoted) := by
    rw [textOf, List.flatMap_map, Text.blockQuoted]
    refine List.flatMap_congr fun l hl => ?_
    exact (text_behind (pending_of_cut cut l hl) ['>', ' ']).symm
  rw [text]
  refine ofText_textOf (cut_map_quoted cut) fun l hl _ => ?_
  obtain ⟨k, -, rfl⟩ := List.mem_map.1 hl
  exact List.cons_ne_nil _ _

end Line

namespace Quote

open Text

theorem indent_quoted (l : Line) : l.quoted.indent = 0 := rfl

theorem unindented_quoted (l : Line) :
    unindented l.quoted.content = '>' :: ' ' :: l.content := rfl

theorem trimStart_quoted (l : Line) : trimStart l.quoted.content = '>' :: ' ' :: l.content := rfl

theorem isQuoted_quoted (l : Line) : isQuoted l.quoted = true := by
  rw [isQuoted, indent_quoted, unindented_quoted]
  rfl

theorem strip_quoted {l : Line} (pending : l.pending = []) : strip l.quoted = l.unquoted := by
  rw [strip, markerLength, indent_quoted, unindented_quoted]
  simp [startsBy, isIndentChar, Line.advance, Line.quoted, Line.unquoted, pending]

/-- No reader in front of that for quotes takes a quoted line. -/
theorem recognise?_quoted (l : Line) (ls : List Line) :
    Block.recognise? (l.quoted :: ls) =
      some (.quote ((l.quoted :: ls.takeWhile isQuoted).map strip), ls.dropWhile isQuoted) := by
  have blank : l.quoted.isBlank = false := rfl
  have fence : FencedCode.read? (l.quoted :: ls) = none := rfl
  have heading : AtxHeading.read? (l.quoted :: ls) = none := rfl
  have rule : ThematicBreak.read? (l.quoted :: ls) = none := by
    simp [ThematicBreak.read?, ThematicBreak.isBreak, trimStart_quoted]
  simp [Block.recognise?, Block.recognisers, Block.readBlank?, blank, fence, heading, rule, read?,
    isQuoted_quoted]

/-- Quoted lines are one quote. -/
theorem next_quoted (l : Line) (ls : List Line) (pending : ∀ k ∈ l :: ls, k.pending = []) :
    Block.next l.quoted (ls.map Line.quoted) =
      (.quote ((l :: ls).map Line.unquoted), []) := by
  have all : ∀ k ∈ ls.map Line.quoted, isQuoted k = true := by
    intro k hk
    obtain ⟨j, -, rfl⟩ := List.mem_map.1 hk
    exact isQuoted_quoted j
  rw [Block.next, recognise?_quoted, List.takeWhile_eq_self_iff.2 all,
    List.dropWhile_eq_nil_iff.2 all, ← List.map_cons, List.map_map, Option.getD_some]
  congr 2
  exact List.map_congr_left fun k hk => strip_quoted (pending k hk)

end Quote

/-! ## Parsing a quoted text -/

theorem FrontMatter.read?_quoted (l : Line) (ls : List Line) : read? (l.quoted :: ls) = none := by
  have printed : Unicode.isWhiteSpace '>' = false := by decide
  have closed : opens l.quoted = false := by
    simp [opens, Line.quoted, Text.trimEnd, Text.dropEndWhile_cons, printed]
  exact read?_eq_none_of_opens closed ls

namespace Document

theorem inStep_unquoted {ls : List Line} (cut : Line.Cut ls) :
    InStep (Line.Alike .fillersOnly) false ls (ls.map Line.unquoted) :=
  Line.inStep_aside (p := ['>', ' ']) ⟨rfl, .inl rfl⟩ (by decide) cut

/-- A quoted text is one quote, and what stands inside of it is alike to the blocks of the text. -/
theorem elements_blockQuoted {t : Text} (ne : t ≠ []) {es : List Element}
    (h : Block.elementsOf (Line.ofText t) = .ok es) :
    ∃ inner, elements (Line.ofText t.blockQuoted) = .ok [.node .blockQuote inner] ∧
      Alike .fillersOnly false es inner := by
  have cut := Line.cut_ofText t
  obtain ⟨inner, hinner, alike⟩ := (Block.elementsOf_alike h).exists_alike (inStep_unquoted cut)
  refine ⟨inner, ?_, alike⟩
  rw [Line.ofText_blockQuoted]
  cases lines : Line.ofText t with
  | nil =>
    have text := Line.textOf_ofText t
    rw [lines] at text
    exact absurd text.symm ne
  | cons l ls =>
    rw [lines] at cut hinner
    rw [List.map_cons, elements, FrontMatter.read?_quoted]
    dsimp only
    have inside : [(l :: ls).map Line.unquoted].mapM Block.elementsOf = .ok [inner] := by
      rw [List.mapM_cons, hinner]
      rfl
    rw [Block.elementsOf_cons, Quote.next_quoted l ls (Line.pending_of_cut cut), Block.inside,
      inside]
    show (do
      let others ← Block.elementsOf []
      Except.ok (Element.node .blockQuote [inner].flatten :: others)) = _
    rw [Block.elementsOf_nil, List.flatten_singleton]
    rfl

end Document

end TierLint
