import Mathlib.Data.List.SplitBy
import TierLint.Block.FrontMatter
import TierLint.Proofs.Block.Sequence
import TierLint.Proofs.Inline.Spelling

/-!
# Lines are covered by the tokens of their blocks

Tokens cover some lines if they can be cut into one stretch for each line: tokens that spell what is
left of the line, and then its ending (`Covers`). Moving a part of a line aside does not change what
covers it, and what a list item writes in front of its first line is put in front of what covers the
rest of that line (`Covers.of_consume`).

The element of a leaf block covers the lines of the block, whichever way it cuts them into tokens
(`FencedCode.covers_element`, `Table.covers_element`, `Paragraph.covers_element`, and so on).
-/

set_option autoImplicit false

namespace TierLint

open Element

/-- What is left of the line to be written, up to its ending. -/
def Line.body (l : Line) : Text := l.pending ++ l.content

/-- What has to be written for the line: its text and its ending. -/
def Line.face (l : Line) : Text × LineEnding := (l.body, l.ending)

@[simp] theorem Line.face_advance (l : Line) (n : Nat) : (l.advance n).face = l.face := by
  simp [face, body, advance]

/-- The tokens for a line's ending: one, or none at the end of the text. -/
def LineEnding.tokens (e : LineEnding) : List (Kind × Text) :=
  if e = .none then [] else [(.newline, e.text)]

theorem Line.tokensOf_endingElements (l : Line) : tokensOf l.endingElements = l.ending.tokens := by
  cases h : l.ending <;>
    simp [endingElements, h, LineEnding.text, LineEnding.tokens, Element.tokenUnlessEmpty]

/-- The tokens are those of the lines, stretch by stretch. -/
inductive Covers : List Line → List (Kind × Text) → Prop
  | nil : Covers [] []
  | cons {l : Line} {ls : List Line} {ts us : List (Kind × Text)} :
      Spells ts l.body → Covers ls us → Covers (l :: ls) (ts ++ l.ending.tokens ++ us)

namespace Covers

theorem singleton {l : Line} {ts : List (Kind × Text)} (h : Spells ts l.body) :
    Covers [l] (ts ++ l.ending.tokens) := by
  simpa using Covers.cons h .nil

theorem append {ls ks : List Line} {ts us : List (Kind × Text)} (hl : Covers ls ts)
    (hk : Covers ks us) : Covers (ls ++ ks) (ts ++ us) := by
  induction hl with
  | nil => exact hk
  | cons first _ ih =>
    rw [List.append_assoc]
    exact .cons first ih

theorem flatMap {f : Line → List (Kind × Text)} (h : ∀ l, Covers [l] (f l)) (ls : List Line) :
    Covers ls (ls.flatMap f) := by
  induction ls with
  | nil => exact .nil
  | cons l ls ih => exact (h l).append ih

/-- Only what has to be written for the lines matters. -/
theorem of_map_face {ls : List Line} {ts : List (Kind × Text)} (h : Covers ls ts) {ks : List Line}
    (same : ls.map Line.face = ks.map Line.face) : Covers ks ts := by
  induction h generalizing ks with
  | nil =>
    obtain rfl : ks = [] := by simpa using same.symm
    exact .nil
  | cons first _ ih =>
    cases ks with
    | nil => simp at same
    | cons k ks =>
      simp only [List.map_cons, List.cons.injEq] at same
      obtain ⟨body, ending⟩ := Prod.mk.inj same.1
      rw [ending]
      exact .cons (first.of_eq body) (ih same.2)

/-- Tokens for the part of a line that was taken as written go in front of those for the rest. -/
theorem of_consume {l : Line} {n : Nat} {ls : List Line} {ts us : List (Kind × Text)}
    (h : Covers (l.consume n :: ls) us) (ht : Spells ts (l.pending ++ l.content.take n)) :
    Covers (l :: ls) (ts ++ us) := by
  cases h with
  | cons first others =>
    rw [← List.append_assoc, ← List.append_assoc]
    refine .cons ((ht.append first).of_eq ?_) others
    simp [Line.body, Line.consume]

end Covers

namespace Line

theorem spells_pendingElements (l : Line) : Spells (tokensOf l.pendingElements) l.pending := by
  have tokens : ∀ runs : List Text, tokensOf (runs.map fun run =>
      Element.token (if run.head? == some '>' then .blockQuoteMarker else .whitespace) run) =
      runs.map fun run =>
        (if run.head? == some '>' then .blockQuoteMarker else .whitespace, run) := by
    intro runs
    induction runs with
    | nil => rfl
    | cons run runs ih => rw [List.map_cons, tokensOf_cons, ih]; rfl
  rw [pendingElements, tokens]
  refine ⟨?_, fun x hx => ?_⟩
  · rw [List.flatMap_map, List.flatMap_id', List.flatten_splitBy]
  · obtain ⟨run, -, rfl⟩ := List.mem_map.1 hx
    dsimp only
    split <;> decide

theorem covers_elementsWith (l : Line) {content : List Element}
    (h : Spells (tokensOf content) l.content) : Covers [l] (tokensOf (l.elementsWith content)) := by
  rw [elementsWith, tokensOf_append, tokensOf_append, tokensOf_endingElements]
  exact .singleton (l.spells_pendingElements.append h)

theorem covers_elements {k : Kind} (hk : k ≠ .newline) (l : Line) :
    Covers [l] (tokensOf (l.elements k)) :=
  l.covers_elementsWith (.tokenUnlessEmpty hk _)

theorem covers_flatMap_elements {k : Kind} (hk : k ≠ .newline) (ls : List Line) :
    Covers ls (tokensOf (ls.flatMap (·.elements k))) := by
  rw [tokensOf_flatMap]
  exact .flatMap (covers_elements hk) ls

theorem covers_blankElement (l : Line) : Covers [l] l.blankElement.tokens := by
  rw [blankElement, tokens_node]
  exact covers_elements (by decide) l

end Line

/-! ## Leaf blocks -/

namespace FencedCode

/-- The opening fence is cut into indentation, marker and info string. -/
theorem spells_openingElements (b : FencedCode) :
    Spells (tokensOf b.openingElements) b.opening.content := by
  have parts := ((Spells.spacing (Text.indentation b.opening.content)).append
    (Spells.token (k := .codeFenceMarker) (by decide)
      ((Text.unindented b.opening.content).take b.fence.length))).append
    (Spells.trimmed (k := .codeInfo) (by decide)
      ((Text.unindented b.opening.content).drop b.fence.length))
  simp only [openingElements, tokensOf_append]
  refine parts.of_eq ?_
  rw [List.append_assoc, List.take_append_drop, Text.indentation_append_unindented]

/-- A closing fence is cut into indentation, marker and the blanks behind it. -/
theorem spells_closingElements (b : FencedCode) (l : Line) :
    Spells (tokensOf (b.closingElements l)) l.content := by
  have parts := ((Spells.spacing (Text.indentation l.content)).append
    (Spells.token (k := .codeFenceMarker) (by decide)
      ((Text.unindented l.content).takeWhile (· == b.fence.mark)))).append
    (Spells.spacing (Text.afterRun b.fence.mark (Text.unindented l.content)))
  simp only [closingElements, tokensOf_append]
  refine parts.of_eq ?_
  rw [List.append_assoc, Text.afterRun, List.takeWhile_append_dropWhile,
    Text.indentation_append_unindented]

theorem covers_element (b : FencedCode) :
    Covers (b.opening :: b.content ++ b.closing?.toList) b.element.tokens := by
  -- Without content there is no node for it, and no token either.
  have content : tokensOf (if b.content.isEmpty then []
      else [.node .codeContent (b.content.flatMap (·.elements .text))]) =
      tokensOf (b.content.flatMap (·.elements .text)) := by
    cases b.content <;> simp
  have closed : Covers b.closing?.toList (tokensOf (b.closing?.toList.map fun l =>
      .node .codeFenceClose (l.elementsWith (b.closingElements l)))) := by
    cases b.closing? with
    | none => exact .nil
    | some l => simpa using l.covers_elementsWith (b.spells_closingElements l)
  rw [element, tokens_node, tokensOf_append, tokensOf_cons, tokens_node, content]
  exact ((b.opening.covers_elementsWith b.spells_openingElements).append
    (Line.covers_flatMap_elements (by decide) b.content)).append closed

end FencedCode

namespace AtxHeading

theorem splitClosing_append (body : Text) :
    (splitClosing body).1 ++ (splitClosing body).2 = body := by
  unfold splitClosing
  simp only
  split
  · simp
  · split
    · simp
    · split
      · refine Text.append_drop_of_isPrefix ?_
        exact (Text.dropEndWhile_isPrefix _ _).trans (Text.dropEndWhile_isPrefix _ _)
      · simp

/-- The body of a heading is cut into the blanks in front, its text, the blanks and the marker that
close it, and the blanks at the end. -/
theorem spells_bodyElements (t : Text) : Spells (tokensOf (bodyElements t)) t := by
  have body := splitClosing_append (Text.trimEnd (Text.unindented t))
  cases split : splitClosing (Text.trimEnd (Text.unindented t)) with
  | mk text closing =>
    rw [split] at body
    have parts := ((((Spells.spacing (Text.indentation t)).append
      (Inline.spells_elements text)).append
      (Spells.spacing (closing.takeWhile Unicode.isWhiteSpace))).append
      (Spells.tokenUnlessEmpty (k := .headingMarker) (by decide) (Text.trimStart closing))).append
      (Spells.spacing ((Text.unindented t).drop (Text.trimEnd (Text.unindented t)).length))
    simp only [bodyElements, split, tokensOf_append, tokensOf_cons, tokens_node, tokensOf_nil,
      List.append_nil]
    refine parts.of_eq ?_
    calc _ = Text.indentation t ++ ((text ++ (closing.takeWhile Unicode.isWhiteSpace
            ++ closing.dropWhile Unicode.isWhiteSpace))
            ++ (Text.unindented t).drop (Text.trimEnd (Text.unindented t)).length) := by
          simp only [Text.trimStart, List.append_assoc]
      _ = t := by
          rw [List.takeWhile_append_dropWhile, body, Text.trimEnd_append_drop,
            Text.indentation_append_unindented]

theorem covers_element {h : AtxHeading} {e : Element} (eq : h.element = .ok e) :
    Covers [h.line] e.tokens := by
  rw [element] at eq
  split at eq
  · rename_i marker behind cut
    cases eq
    have whole := (Text.eq_of_splitAtByte cut).1
    rw [tokens_node]
    refine Line.covers_elementsWith _ ?_
    have parts := ((Spells.spacing (Text.indentation h.line.content)).append
      (Spells.token (k := .headingMarker) (by decide) marker)).append
      (spells_bodyElements behind)
    simp only [tokensOf_append, tokensOf_cons, tokens_node, tokens_token, tokensOf_nil,
      List.append_nil]
    exact parts.of_eq (by
      rw [List.append_assoc, ← whole, Text.indentation_append_unindented])
  · cases eq

end AtxHeading

theorem ThematicBreak.covers_element (l : Line) : Covers [l] (ThematicBreak.element l).tokens := by
  rw [element, tokens_node]
  exact l.covers_elementsWith (.trimmed (by decide) _)

theorem Html.covers_element (ls : List Line) : Covers ls (Html.element ls).tokens := by
  rw [element, tokens_node]
  exact Line.covers_flatMap_elements (by decide) ls

theorem IndentedCode.covers_element (ls : List Line) :
    Covers ls (IndentedCode.element ls).tokens := by
  simp only [element, tokens_node, tokensOf_cons, tokensOf_nil, List.append_nil]
  exact Line.covers_flatMap_elements (by decide) ls

theorem FrontMatter.covers_element (f : FrontMatter) :
    Covers (f.opening :: f.content ++ [f.closing]) f.element.tokens := by
  have delimiter : ∀ l : Line,
      Covers [l] (tokensOf (l.elementsWith (trimmed .frontMatterDelimiter l.content))) :=
    fun l => l.covers_elementsWith (.trimmed (by decide) _)
  simp only [element, tokens_node, tokensOf_append]
  exact ((delimiter f.opening).append
    (Line.covers_flatMap_elements (by decide) f.content)).append (delimiter f.closing)

namespace Paragraph

/-- The lines of a paragraph, with the underline if there is one. -/
def all (p : Paragraph) : List Line := p.lines ++ p.underline?.toList

theorem covers_lineElements (l : Line) : Covers [l] (tokensOf (lineElements l)) := by
  refine l.covers_elementsWith ?_
  rw [tokensOf_append]
  exact ((Spells.spacing _).append (Inline.spells_elements _)).of_eq
    (Text.indentation_append_unindented _)

theorem covers_element (p : Paragraph) : Covers p.all p.element.tokens := by
  have content : Covers p.lines (tokensOf (p.lines.flatMap lineElements)) := by
    rw [tokensOf_flatMap]
    exact .flatMap covers_lineElements p.lines
  rw [all, element]
  cases p.underline? with
  | none => simpa using content
  | some u =>
    simp only [tokens_node, tokensOf_cons, tokensOf_nil, List.append_nil]
    exact content.append (u.covers_elementsWith (.trimmed (by decide) _))

end Paragraph

/-! ## Tables -/

namespace Table

/-- The lines of a table. -/
def all (t : Table) : List Line := t.header :: t.delimiter :: t.body

/-- The row that the pieces came from. -/
def join : List Text → Text
  | [] => []
  | piece :: rest => piece ++ rest.flatMap ('|' :: ·)

theorem join_consPiece (c : Char) (ps : List Text) : join (consPiece c ps) = c :: join ps := by
  cases ps <;> simp [consPiece, join]

theorem join_nil_cons {ps : List Text} (h : ps ≠ []) : join ([] :: ps) = '|' :: join ps := by
  cases ps with
  | nil => exact absurd rfl h
  | cons p ps => simp [join]

theorem pieces_ne_nil (inCode hidden : Bool) (t : Text) : pieces inCode hidden t ≠ [] := by
  fun_cases pieces inCode hidden t <;> simp [consPiece]

/-- Cutting a row at pipes keeps all its characters, whichever of them are hidden or in code. -/
theorem join_pieces (inCode hidden : Bool) (t : Text) : join (pieces inCode hidden t) = t := by
  induction t generalizing inCode hidden with
  | nil => rfl
  | cons c t ih =>
    rw [pieces]
    -- only a pipe that is neither hidden nor in code is not kept in a piece
    split
    · rw [join_consPiece, ih]
    split
    · rw [join_consPiece, ih]
    split
    · rw [join_consPiece, ih]
    split
    · rename_i pipe
      obtain ⟨rfl, -⟩ : c = '|' ∧ inCode = false := by simpa using pipe
      rw [join_nil_cons (pieces_ne_nil _ _ _), ih]
    · rw [join_consPiece, ih]

theorem spells_pieceElements (outer : Bool) (t : Text) :
    Spells (tokensOf (pieceElements outer t)) t := by
  rw [pieceElements]
  split
  · exact .spacing t
  · have parts := ((Spells.spacing (t.takeWhile Unicode.isWhiteSpace)).append
      (Inline.spells_elements (Text.trim t))).append (Spells.spacing
        (t.drop ((t.takeWhile Unicode.isWhiteSpace).length + (Text.trim t).length)))
    simp only [tokensOf_cons, tokens_node, tokensOf_append, tokensOf_nil, List.append_nil]
    refine parts.of_eq ?_
    have behind : t.drop (t.takeWhile Unicode.isWhiteSpace).length = Text.trimStart t := by
      have whole : t.takeWhile Unicode.isWhiteSpace ++
          t.drop (t.takeWhile Unicode.isWhiteSpace).length =
            t.takeWhile Unicode.isWhiteSpace ++ Text.trimStart t := by
        rw [Text.append_drop_of_isPrefix (List.takeWhile_prefix _), Text.trimStart,
          List.takeWhile_append_dropWhile]
      exact List.append_cancel_left whole
    rw [← List.drop_drop, behind, Text.trim, List.append_assoc, Text.trimEnd_append_drop,
      Text.trimStart, List.takeWhile_append_dropWhile]

theorem spells_furtherElements (ps : List Text) :
    Spells (tokensOf (furtherElements ps)) (ps.flatMap ('|' :: ·)) := by
  have pipe : Spells (tokensOf [.token .tablePipe ['|']]) ['|'] := .token (by decide) _
  fun_induction furtherElements ps with
  | case1 => exact .nil
  | case2 piece =>
    -- the last piece, an outer one
    simpa using pipe.append (spells_pieceElements true piece)
  | case3 piece rest _ ih =>
    simpa using pipe.append ((spells_pieceElements false piece).append ih)

theorem spells_rowElements (content : Text) : Spells (tokensOf (rowElements content)) content := by
  have whole := join_pieces false false content
  rw [rowElements]
  split
  · rename_i none
    rw [none] at whole
    exact Spells.nil.of_eq whole
  · rename_i piece rest some
    rw [some] at whole
    rw [tokensOf_append]
    exact ((spells_pieceElements true piece).append (spells_furtherElements rest)).of_eq whole

theorem covers_rowElement (l : Line) : Covers [l] (rowElement l).tokens := by
  rw [rowElement, tokens_node]
  exact l.covers_elementsWith (spells_rowElements l.content)

theorem covers_element (t : Table) : Covers t.all t.element.tokens := by
  have body : Covers t.body (tokensOf (t.body.map rowElement)) := by
    induction t.body with
    | nil => exact .nil
    | cons l ls ih => exact (covers_rowElement l).append ih
  simp only [element, tokens_node, tokensOf_cons]
  exact (covers_rowElement t.header).append
    ((t.delimiter.covers_elementsWith (.trimmed (by decide) _)).append body)

end Table

end TierLint
