import TierLint.Proofs.Block.Opener
import TierLint.Proofs.Document.Prefixed

/-!
# Texts as list items

A text with a bullet in front of its first line, and the others indented as far, is a list with one
item, and the blocks in the item are those of the text, apart from white space
(`Document.parse_bulleted`).

The item takes all lines, since each of them is blank or indented to its content
(`Line.reach_eq_length`), whatever stands in them. Inside of it the indentation is pending, so its
lines are those of the text (`ListItem.inner_bulleted`).
-/

set_option autoImplicit false

namespace TierLint

open Element Text

/-- The text with a bullet in front of its first line, and two spaces in front of the others. -/
def Text.bulleted (t : Text) : Text :=
  match Line.ofText t with
  | [] => []
  | l :: ls => '-' :: ' ' :: l.text ++ ls.flatMap fun k => ' ' :: ' ' :: k.text

/-- A search that accepts every line goes on to the end, if the last line is not blank. -/
theorem Line.reach_eq_length {accepts : Bool → Line → Bool} {ls : List Line}
    (accepted : ∀ l ∈ ls, ∀ afterBlank, accepts afterBlank l = true)
    (filled : ∀ l ∈ ls.getLast?, l.isBlank = false) (afterBlank : Bool) :
    Line.reach accepts afterBlank ls = ls.length := by
  induction ls generalizing afterBlank with
  | nil => rfl
  | cons l ls ih =>
    obtain ⟨first, others⟩ := List.forall_mem_cons.1 accepted
    cases ls with
    | nil =>
      rw [Line.reach, filled l rfl, if_neg Bool.false_ne_true, if_pos (first afterBlank)]
      rfl
    | cons k ls =>
      have rest := ih others filled
      rw [Line.reach, rest, rest, first, if_pos rfl]
      split <;> rfl

namespace Line

variable {t : Text} {first : Line} {others : List Line}

/-- The lines of a text with a bullet. -/
theorem ofText_bulleted (lines : ofText t = first :: others) :
    ofText t.bulleted = first.behind ['-', ' '] :: others.map (behind [' ', ' ']) := by
  have cut := lines ▸ cut_ofText t
  obtain ⟨pending, pendings⟩ := List.forall_mem_cons.1 (pending_of_cut cut)
  have text : t.bulleted =
      textOf (first.behind ['-', ' '] :: others.map (behind [' ', ' '])) := by
    rw [Text.bulleted, lines, textOf, List.flatMap_cons, List.flatMap_map, text_behind pending]
    refine congrArg (['-', ' '] ++ first.text ++ ·) (List.flatMap_congr fun l hl => ?_)
    exact (text_behind (pendings l hl) [' ', ' ']).symm
  have rest : Cut (others.map (behind [' ', ' '])) := cut_map_behind (by decide) cut.2.2.2.2
  rw [text]
  refine ofText_textOf (cut_cons_behind (by decide) cut rest (by rintro rfl; rfl)) ?_
  refine List.forall_mem_cons.2 ⟨fun _ => List.cons_ne_nil _ _, fun l hl _ => ?_⟩
  obtain ⟨k, -, rfl⟩ := List.mem_map.1 hl
  exact List.cons_ne_nil _ _

end Line

/-- The marker of a bullet with one space behind it. -/
def ListMarker.bullet : ListMarker := ⟨.bullet '-', 0, ['-'], 1, none⟩

theorem ListMarker.read?_bullet {content : Text} (filled : isBlank content = false)
    (flush : Text.indent content = 0) : read? ('-' :: ' ' :: content) = some bullet := by
  have blanks : Text.indent (' ' :: content) = 1 := by
    rw [Text.indent, indentation, List.takeWhile_cons_of_pos (by rfl), List.length_cons]
    exact congrArg (· + 1) flush
  have symbol : symbol? (unindented ('-' :: ' ' :: content)) =
      some (.bullet '-', none, ['-'], ' ' :: content) := rfl
  have ink : isBlank (' ' :: content) = false := filled
  rw [read?, symbol]
  dsimp only
  rw [blanks, ink]
  rfl

namespace ListItem

/-- The item of a text with a bullet, given the lines of the text. -/
def bulleted (first : Line) (others : List Line) : ListItem :=
  ⟨[], .bullet, first.behind ['-', ' '], others.map (Line.behind [' ', ' '])⟩

variable {first : Line} {others : List Line}

theorem strip_behind {l : Line} (pending : l.pending = []) :
    strip 2 (l.behind [' ', ' ']) = l.aside [' ', ' '] := by
  have deep : min (l.behind [' ', ' ']).indent 2 = 2 := Nat.min_eq_right (Nat.le_add_left 2 _)
  rw [strip, deep, Line.advance, Line.behind, Line.aside, pending]
  rfl

/-- Inside of the item are the lines of the text. -/
theorem inner_bulleted (pending : ∀ l ∈ first :: others, l.pending = []) :
    (bulleted first others).inner = first :: others.map (Line.aside [' ', ' ']) := by
  obtain ⟨here, pendings⟩ := List.forall_mem_cons.1 pending
  have consumed : (first.behind ['-', ' ']).consume 2 = first := by
    obtain ⟨pending, content, ending⟩ := first
    cases here
    rfl
  rw [inner, bulleted, List.map_map]
  refine congrArg₂ List.cons consumed (List.map_congr_left fun l hl => ?_)
  exact strip_behind (pendings l hl)

theorem elements_bulleted (pending : first.pending = []) (inner : List Element) :
    (bulleted first others).elements inner =
      [.node .listItem (.token .listMarker ['-'] :: .token .whitespace [' '] :: inner)] := by
  obtain ⟨_, content, ending⟩ := first
  cases pending
  rfl

/-- The item takes all lines. -/
theorem sequence_bulleted (filled : ∀ l ∈ (first :: others).getLast?, l.isBlank = false) :
    sequence [] .bullet (first.behind ['-', ' ']) (others.map (Line.behind [' ', ' '])) =
      ([bulleted first others], []) := by
  have all : reach .bullet (first.behind ['-', ' ']) (others.map (Line.behind [' ', ' '])) =
      (others.map (Line.behind [' ', ' '])).length := by
    apply Line.reach_eq_length
    · intro l hl afterBlank
      -- indented to the content of the item, whatever stands behind the indentation
      obtain ⟨k, -, rfl⟩ := List.mem_map.1 hl
      have deep : 2 ≤ (k.behind [' ', ' ']).indent := Nat.le_add_left 2 _
      exact Bool.or_eq_true_iff.2 (.inl (decide_eq_true deep))
    · intro l hl
      rw [List.getLast?_map] at hl
      obtain ⟨k, hk, rfl⟩ := Option.map_eq_some_iff.1 hl
      have last : (first :: others).getLast? = some k := by rw [List.getLast?_cons, hk]; rfl
      exact filled k last
  rw [sequence_eq_singleton, all, List.take_length, List.drop_length]
  · rfl
  · rw [all, List.drop_length]
    intro next behind none
    cases none

end ListItem

/-- A line with a bullet begins a list, unless it is a thematic break. -/
theorem Line.opener_bulleted {l : Line} (filled : l.isBlank = false) (flush : l.indent = 0)
    (noBreak : ThematicBreak.isBreak ('-' :: ' ' :: l.content) = false) :
    (l.behind ['-', ' ']).opener = .item .bullet :=
  opener_eq_item_iff.2 ⟨rfl, rfl, rfl, noBreak, rfl, ListMarker.read?_bullet filled flush⟩

theorem FrontMatter.read?_bulleted (l : Line) (ls : List Line) :
    read? (l.behind ['-', ' '] :: ls) = none := by
  have second : trimEnd ('-' :: ' ' :: l.content) ≠ ['-', '-', '-'] := by
    rw [trimEnd, dropEndWhile_cons, dropEndWhile_cons]
    cases dropEndWhile Unicode.isWhiteSpace l.content with
    | nil => decide
    | cons c rest => simp
  exact read?_eq_none_of_opens (beq_eq_false_iff_ne.2 second) ls

namespace Document

variable {t : Text} {first : Line} {others : List Line} {es : List Element}

/-- The lines of the text go in step with those inside the item. -/
theorem inStep_bulleted (cut : Line.Cut (first :: others)) :
    InStep (Line.Alike .spacesOnly) false (first :: others)
      (first :: others.map (Line.aside [' ', ' '])) := by
  obtain ⟨pending, lf, -, -, rest⟩ := cut
  have inside : '\n' ∉ first.body := by rwa [Line.body, pending]
  have spaces : Slack.spacesOnly.AllowsPending [] [' ', ' '] :=
    ⟨rfl, .inr ⟨[' ', ' '], by decide, (List.append_nil _).symm⟩⟩
  exact .cons (.refl inside) (Line.inStep_aside spaces (by decide) rest)

section

variable (lines : Line.ofText t = first :: others) (filled : first.isBlank = false)
  (flush : first.indent = 0) (ends : ∀ l ∈ (first :: others).getLast?, l.isBlank = false)
  (noBreak : ThematicBreak.isBreak ('-' :: ' ' :: first.content) = false)

include lines filled flush ends noBreak

/-- A text with a bullet is a list with one item, around the elements of the lines inside. -/
theorem elements_bulleted {inner : List Element}
    (h : Block.elementsOf (first :: others.map (Line.aside [' ', ' '])) = .ok inner) :
    elements (Line.ofText t.bulleted) = .ok [.node .list [.node .listItem
      (.token .listMarker ['-'] :: .token .whitespace [' '] :: inner)]] := by
  have pending := Line.pending_of_cut (lines ▸ Line.cut_ofText t)
  have next : Block.next (first.behind ['-', ' ']) (others.map (Line.behind [' ', ' '])) =
      (.list [ListItem.bulleted first others], []) := by
    rw [Block.next_eq_opened, Line.opener_bulleted filled flush noBreak, Block.opened,
      ListItem.sequence_bulleted ends]
  have inside : [(ListItem.bulleted first others).inner].mapM Block.elementsOf = .ok [inner] := by
    rw [List.mapM_cons, ListItem.inner_bulleted pending, h]
    rfl
  have element : Block.element [inner] (.list [ListItem.bulleted first others]) =
      .ok (.node .list [.node .listItem
        (.token .listMarker ['-'] :: .token .whitespace [' '] :: inner)]) := by
    rw [Block.element, List.zipWith_cons_cons, List.zipWith_nil_left, List.flatten_singleton,
      ListItem.elements_bulleted (pending first List.mem_cons_self)]
  rw [Line.ofText_bulleted lines, elements, FrontMatter.read?_bulleted]
  dsimp only
  rw [Block.elementsOf_cons, next, Block.inside, List.map_singleton, inside]
  show (Block.element [inner] (.list [ListItem.bulleted first others]) >>= fun _ => _) = _
  rw [element, Block.elementsOf_nil]
  rfl

/-- **Transparency of items.** A text with a bullet is a list with one item, and the blocks in the
item are those of the text, apart from white space. -/
theorem parse_bulleted (h : Block.elementsOf (Line.ofText t) = .ok es) :
    ∃ inner,
      parse t.bulleted = .ok (tree
        [.node .list [.node .listItem (.token .listMarker ['-'] :: inner)]]) ∧
      withoutOf (· == .whitespace) inner = withoutOf (· == .whitespace) es := by
  have same := inStep_bulleted (lines ▸ Line.cut_ofText t)
  obtain ⟨inner, found, alike⟩ := (Block.elementsOf_alike (lines ▸ h)).exists_alike same
  refine ⟨.token .whitespace [' '] :: inner, parse_eq_ok_iff.2 ⟨_, ?_, rfl⟩, ?_⟩
  · exact elements_bulleted lines filled flush ends noBreak found
  · rw [withoutOf_cons_of_drop rfl]
    exact alike.withoutSpaces_eq.symm

end

/-- A quote, a blank line and fenced code in one item. -/
theorem parse_bulleted_quote_and_code :
    let t : Text := "> a\n\n```\n x\n```\n".toList
    let es : List Element :=
      [.node .blockQuote [.node .paragraph
        [.token .blockQuoteMarker ['>'], .token .whitespace [' '], .token .text ['a'],
         .token .newline ['\n']]],
       .node .blankLine [.token .newline ['\n']],
       .node .codeBlock
        [.node .codeFenceOpen
          [.token .codeFenceMarker ['`', '`', '`'], .token .newline ['\n']],
         .node .codeContent [.token .text [' ', 'x'], .token .newline ['\n']],
         .node .codeFenceClose
          [.token .codeFenceMarker ['`', '`', '`'], .token .newline ['\n']]]]
    t.bulleted = "- > a\n  \n  ```\n   x\n  ```\n".toList ∧
      Block.elementsOf (Line.ofText t) = .ok es ∧
      ∃ inner,
        parse t.bulleted = .ok (tree
          [.node .list [.node .listItem (.token .listMarker ['-'] :: inner)]]) ∧
        withoutOf (· == .whitespace) inner = withoutOf (· == .whitespace) es := by
  intro t es
  have parsed : Block.elementsOf (Line.ofText "> a\n\n```\n x\n```\n".toList) = .ok es := by
    decide +kernel
  have lines : Line.ofText t =
      ⟨[], "> a".toList, .lf⟩ :: [⟨[], [], .lf⟩, ⟨[], "```".toList, .lf⟩, ⟨[], " x".toList, .lf⟩,
        ⟨[], "```".toList, .lf⟩] := rfl
  refine ⟨by decide, parsed, parse_bulleted lines (by decide) (by decide) ?_ (by decide) parsed⟩
  intro l hl
  cases hl
  rfl

end Document

end TierLint
