import TierLint.Proofs.Document.HeadingLevel
import TierLint.Proofs.Document.Prefixed

/-!
# Headings read back

A heading can be written with a marker, a blank and its title, a closing run of `#` behind another
blank, and blanks at the end of the line (`AtxHeading.Written`). The reader takes the parts off from
both ends: the marker and the blank behind it, the blanks at the end, the closing run, and the blank
in front of that. Whatever the title holds, it is left as it was written, since it neither begins nor
ends with white space and does not end with a `#` (`AtxHeading.splitClosing_closed`).

So the tree of such a text is a single heading of the written level, and its content is that of the
title read by itself (`Document.parse_written`).
-/

set_option autoImplicit false

namespace TierLint

open Element List Text

namespace AtxHeading

variable {s gap : Text}

/-- A text that a heading can have for its title. -/
structure IsTitle (s : Text) : Prop where
  /-- It is not empty. -/
  nonempty : s ≠ []
  /-- It stands on one line. -/
  oneLine : '\n' ∉ s
  /-- It begins with a character that is no white space. -/
  begins : startsBy Unicode.isWhiteSpace s = false
  /-- It ends with a character that is no white space. -/
  ends : endsBy Unicode.isWhiteSpace s = false
  /-- It does not end with a `#`. -/
  unclosed : endsBy (· == '#') s = false

/-- A closing run of `k` hashes with the blank in front of it; without hashes there is none. -/
def closingRun : Nat → Text
  | 0 => []
  | k + 1 => ' ' :: replicate (k + 1) '#'

/-- A heading as it is written. -/
structure Written where
  level : Nat
  title : Text
  /-- The number of hashes at the end. -/
  closing : Nat
  /-- Blanks at the end of the line. -/
  gap : Text
  ending : LineEnding
  positive : 1 ≤ level
  atMost : level ≤ 6
  isTitle : IsTitle title
  blank : gap.all isIndentChar = true

namespace Written

/-- The title with the closing run. -/
def body (w : Written) : Text := w.title ++ closingRun w.closing

/-- What stands in front of the line end. -/
def content (w : Written) : Text := replicate w.level '#' ++ ' ' :: (w.body ++ w.gap)

/-- The heading as the text of a document. -/
def text (w : Written) : Text := w.content ++ w.ending.text

/-- The line that the heading stands on. -/
def line (w : Written) : Line := ⟨[], w.content, w.ending⟩

/-- The elements of the closing run. -/
def closingElements (w : Written) : List Element :=
  match w.closing with
  | 0 => []
  | k + 1 => [.token .whitespace [' '], .token .headingMarker (replicate (k + 1) '#')]

/-- The node for the heading. -/
def heading (w : Written) : Element :=
  .node .heading <|
    [.node .headingMarker [.token .headingMarker (replicate w.level '#')],
      .token .whitespace [' '],
      .node .headingContent (Inline.elements w.title)]
    ++ w.closingElements ++ spacing w.gap ++ tokenUnlessEmpty .newline w.ending.text

end Written

/-! ## The closing run -/

/-- A title stays apart from what follows it. -/
theorem IsTitle.startsBy_append (h : IsTitle s) (u : Text) :
    startsBy Unicode.isWhiteSpace (s ++ u) = false := by
  rw [startsBy_append_of_ne_nil h.nonempty]
  exact h.begins

/-- A title with a closing run ends with a character that is no white space. -/
theorem IsTitle.endsBy_closed (h : IsTitle s) (k : Nat) :
    endsBy Unicode.isWhiteSpace (s ++ closingRun k) = false := by
  cases k with
  | zero =>
    rw [closingRun, append_nil]
    exact h.ends
  | succ k =>
    have hash : Unicode.isWhiteSpace '#' = false := by decide
    rw [closingRun, replicate_succ', ← cons_append, ← append_assoc, endsBy, getLast?_concat]
    exact hash

/-- The closing run is split off a title and is all that is split off, whatever `#` the title
holds. -/
theorem splitClosing_closed (h : IsTitle s) (k : Nat) :
    splitClosing (s ++ closingRun k) = (s, closingRun k) := by
  cases k with
  | zero =>
    rw [closingRun, append_nil, splitClosing, dropEndWhile_eq_self h.unclosed]
    exact if_pos (beq_self_eq_true s.length)
  | succ k =>
    -- without the hashes, the title and the blank are left
    have hashes : (replicate (k + 1) '#').all (· == '#') = true :=
      all_eq_true.2 fun c hc => beq_iff_eq.2 (eq_of_mem_replicate hc)
    have blankLast : endsBy (· == '#') (s ++ [' ']) = false := by
      rw [endsBy, getLast?_concat]
      rfl
    have withoutRun : dropEndWhile (· == '#') (s ++ closingRun (k + 1)) = s ++ [' '] := by
      rw [closingRun, append_cons, dropEndWhile_append_of_all hashes, dropEndWhile_eq_self blankLast]
    have text : trimEnd (s ++ [' ']) = s := by
      rw [trimEnd, dropEndWhile_append_of_all (by decide), dropEndWhile_eq_self h.ends]
    have shorter : ((s ++ [' ']).length == (s ++ closingRun (k + 1)).length) = false := by
      rw [beq_eq_false_iff_ne, closingRun]
      simp only [length_append, length_cons, length_nil, length_replicate]
      omega
    have filled : (s ++ [' ']).isEmpty = false := by
      rw [isEmpty_eq_false_iff]
      apply append_ne_nil_of_right_ne_nil
      exact cons_ne_nil ' ' []
    have blank : endsBy isIndentChar (s ++ [' ']) = true := by
      rw [endsBy, getLast?_concat]
      rfl
    rw [splitClosing, withoutRun]
    simp only [shorter, filled, blank, text, Bool.false_eq_true, if_false, if_true, drop_left]

namespace Written

variable (w : Written)

theorem startsBy_body (u : Text) : startsBy Unicode.isWhiteSpace (w.body ++ u) = false := by
  rw [body, append_assoc]
  exact w.isTitle.startsBy_append _

theorem trimEnd_body : trimEnd (w.body ++ w.gap) = w.body := by
  have blank : w.gap.all Unicode.isWhiteSpace = true :=
    all_eq_true.2 fun c hc => isWhiteSpace_of_isIndentChar (all_eq_true.1 w.blank c hc)
  rw [trimEnd, dropEndWhile_append_of_all blank, dropEndWhile_eq_self]
  exact w.isTitle.endsBy_closed w.closing

/-! ## The line -/

theorem exists_content_eq_cons : ∃ rest, w.content = '#' :: rest := by
  obtain ⟨m, hm⟩ : ∃ m, w.level = m + 1 := ⟨w.level - 1, by have := w.positive; omega⟩
  refine ⟨replicate m '#' ++ ' ' :: (w.body ++ w.gap), ?_⟩
  rw [content, hm, replicate_succ, cons_append]

/-- The marker begins the content. -/
theorem startsBy_content : startsBy Unicode.isWhiteSpace w.content = false := by
  obtain ⟨rest, eq⟩ := w.exists_content_eq_cons
  rw [eq]
  exact (by decide : Unicode.isWhiteSpace '#' = false)

theorem unindented_content : unindented w.content = w.content :=
  dropWhile_of_startsBy (startsBy_isIndentChar w.startsBy_content)

theorem level?_content : level? w.content = some w.level := by
  have other : startsBy (· == '#') (' ' :: (w.body ++ w.gap)) = false := rfl
  have run : runLength '#' w.content = w.level := runLength_replicate_append other w.level
  have behind : afterRun '#' w.content = ' ' :: (w.body ++ w.gap) :=
    afterRun_replicate_append other w.level
  have trimmed : trimStart w.content = w.content := dropWhile_of_startsBy w.startsBy_content
  have accepted : (byteLength [] ≤ 3 && 1 ≤ w.level && w.level ≤ 6
      && ((' ' :: (w.body ++ w.gap)).isEmpty ||
        startsBy isIndentChar (' ' :: (w.body ++ w.gap)))) = true := by
    rw [decide_eq_true w.positive, decide_eq_true w.atMost]
    rfl
  rw [level?, trimmed, run, behind, takeWhile_of_startsBy w.startsBy_content]
  exact if_pos accepted

/-- Neither a blank line nor a fence comes before the heading. -/
theorem opener_line : w.line.opener = .heading w.level := by
  obtain ⟨rest, eq⟩ := w.exists_content_eq_cons
  have start : unindented w.line.content = '#' :: rest := w.unindented_content.trans eq
  have blank : w.line.isBlank = false := isBlank_eq_false_of_unindented start (by decide)
  have fence : w.line.fence? = none := by
    rw [Line.fence?, start]
    exact ite_self none
  rw [Line.opener, blank, fence]
  simp only [Bool.false_eq_true, if_false, line, w.level?_content]

/-- The last character of the line is no white space or one of the blanks at its end, so no carriage
return is taken for a part of the line end. -/
theorem getLast?_content : w.content.getLast? ≠ some '\r' := by
  intro last
  have notNil : w.body ++ w.gap ≠ [] := by
    apply append_ne_nil_of_left_ne_nil
    apply append_ne_nil_of_left_ne_nil
    exact w.isTitle.nonempty
  rw [content, append_cons, getLast?_append_of_ne_nil _ notNil] at last
  by_cases none : w.gap = []
  · have ends : endsBy Unicode.isWhiteSpace w.body = false := w.isTitle.endsBy_closed w.closing
    rw [none, append_nil] at last
    rw [endsBy, last] at ends
    exact absurd ends (by decide)
  · rw [getLast?_append_of_ne_nil _ none] at last
    have indents := all_eq_true.1 w.blank _ (mem_of_getLast? last)
    exact absurd indents (by decide)

theorem not_mem_content : '\n' ∉ w.content := by
  have closing : '\n' ∉ closingRun w.closing := by
    cases w.closing with
    | zero => exact not_mem_nil
    | succ k =>
      rw [closingRun, mem_cons, mem_replicate]
      rintro (other | ⟨-, other⟩) <;> exact absurd other (by decide)
  rw [content, body, mem_append, mem_cons, mem_append, mem_append]
  rintro (marker | blank | (title | run) | gap)
  · exact absurd (eq_of_mem_replicate marker) (by decide)
  · exact absurd blank (by decide)
  · exact w.isTitle.oneLine title
  · exact closing run
  · exact absurd (all_eq_true.1 w.blank _ gap) (by decide)

/-- The text is one line. -/
theorem ofText_text : Line.ofText w.text = [w.line] := by
  have cut : Line.Cut [w.line] :=
    ⟨rfl, w.not_mem_content, fun _ => w.getLast?_content, fun _ => rfl, trivial⟩
  have whole : Line.textOf [w.line] = w.text := append_nil _
  rw [← whole]
  apply Line.ofText_textOf cut
  intro l hl _
  obtain rfl := mem_singleton.1 hl
  obtain ⟨rest, eq⟩ := w.exists_content_eq_cons
  rw [line, eq]
  exact cons_ne_nil '#' rest

/-! ## The element -/

/-- The closing run is written with the blank in front of it apart. -/
theorem closingRun_elements :
    spacing ((closingRun w.closing).takeWhile Unicode.isWhiteSpace)
      ++ tokenUnlessEmpty .headingMarker (trimStart (closingRun w.closing)) = w.closingElements := by
  rw [closingElements]
  cases w.closing with
  | zero => rfl
  | succ k =>
    have hash : ¬ Unicode.isWhiteSpace '#' = true := by decide
    have blank : (closingRun (k + 1)).takeWhile Unicode.isWhiteSpace = [' '] := by
      rw [closingRun, replicate_succ, takeWhile_cons_of_pos (by decide),
        takeWhile_cons_of_neg hash]
    have hashes : trimStart (closingRun (k + 1)) = replicate (k + 1) '#' := by
      rw [trimStart, closingRun, dropWhile_cons_of_pos (by decide), replicate_succ,
        dropWhile_cons_of_neg hash]
    rw [blank, hashes]
    rfl

/-- Behind the marker the title is found between the blank and the closing run. -/
theorem bodyElements_content :
    bodyElements (' ' :: (w.body ++ w.gap)) =
      [.token .whitespace [' '], .node .headingContent (Inline.elements w.title)]
        ++ w.closingElements ++ spacing w.gap := by
  have first := startsBy_isIndentChar (w.startsBy_body w.gap)
  have indent : indentation (' ' :: (w.body ++ w.gap)) = [' '] := by
    rw [indentation, takeWhile_cons_of_pos (by decide), takeWhile_of_startsBy first]
  have behind : unindented (' ' :: (w.body ++ w.gap)) = w.body ++ w.gap := by
    rw [unindented, dropWhile_cons_of_pos (by decide), dropWhile_of_startsBy first]
  rw [bodyElements, indent, behind, w.trimEnd_body]
  simp only [body, splitClosing_closed w.isTitle, drop_left]
  rw [← w.closingRun_elements]
  simp only [append_assoc]
  rfl

theorem element_line : element ⟨w.level, w.line⟩ = .ok w.heading := by
  have cut := splitAtByte_append (replicate w.level '#') (' ' :: (w.body ++ w.gap))
  rw [byteLength_replicate (by decide), ← content] at cut
  have flush : indentation w.content = [] :=
    takeWhile_of_startsBy (startsBy_isIndentChar w.startsBy_content)
  rw [element, line]
  simp only [w.unindented_content, cut, flush, w.bodyElements_content]
  rfl

/-- The marker is the first node of the heading, and its level is counted in it. -/
theorem headingLevel?_heading : w.heading.headingLevel? = some w.level := by
  have marker : markedLevel? (.node .headingMarker [.token .headingMarker (replicate w.level '#')]) =
      some w.level := by
    rw [markedLevel?, textOf_singleton_token, count_trim (by decide), count_replicate_self]
  rw [headingLevel?, heading, Element.children]
  simp only [cons_append, findSome?_cons, marker]

end Written

end AtxHeading

/-! ## Reading back -/

namespace Element

/-- The elements inside a content node. -/
def headingContent? : Element → Option (List Element)
  | .node .headingContent es => some es
  | _ => none

/-- The contents of a heading: the elements inside each of its content nodes. -/
def headingContents (heading : Element) : List (List Element) :=
  heading.children.filterMap headingContent?

theorem headingContents_tokenUnlessEmpty (k : Kind) (t : Text) :
    (tokenUnlessEmpty k t).filterMap headingContent? = [] := by
  cases t <;> rfl

end Element

namespace AtxHeading.Written

theorem headingContents_heading (w : Written) :
    w.heading.headingContents = [Inline.elements w.title] := by
  have closing : w.closingElements.filterMap headingContent? = [] := by
    rw [closingElements]
    cases w.closing with
    | zero => rfl
    | succ k => rfl
  rw [headingContents, heading, Element.children, filterMap_append, filterMap_append,
    filterMap_append, closing, spacing, headingContents_tokenUnlessEmpty,
    headingContents_tokenUnlessEmpty]
  rfl

end AtxHeading.Written

namespace Document

/-- **Headings read back.** The text of a heading with a marker has a single heading for its tree. Its
level is the one that was written, and its content is the title as it is read by itself, whatever
hashes, blanks and markup that has. -/
theorem parse_written (w : AtxHeading.Written) :
    parse w.text = .ok (tree [w.heading]) ∧ w.heading.headingLevel? = some w.level ∧
      w.heading.headingContents = [Inline.elements w.title] := by
  refine ⟨?_, w.headingLevel?_heading, w.headingContents_heading⟩
  have next : Block.next w.line [] = (.atxHeading ⟨w.level, w.line⟩, []) := by
    rw [Block.next_eq_opened, w.opener_line]
    rfl
  have elements : Block.elementsOf [w.line] = .ok [w.heading] := by
    rw [Block.elementsOf_cons, next]
    change (AtxHeading.element ⟨w.level, w.line⟩ >>= _) = _
    rw [w.element_line]
    change (Block.elementsOf [] >>= _) = _
    rw [Block.elementsOf_nil]
    rfl
  rw [parse_eq_ok_iff]
  refine ⟨[w.heading], ?_, rfl⟩
  rw [w.ofText_text]
  exact elements

/-- A title with hashes, blanks and markup, in front of a closing run and a tab. -/
theorem parse_written_hashes :
    ∃ w : AtxHeading.Written, w.text = "## #1 `#` *a #* b\\# c ###\t\r\n".toList ∧
      parse w.text = .ok (tree [w.heading]) ∧ w.heading.headingLevel? = some 2 ∧
      w.heading.headingContents = [Inline.elements "#1 `#` *a #* b\\# c".toList] := by
  have isTitle : AtxHeading.IsTitle "#1 `#` *a #* b\\# c".toList :=
    ⟨by decide, by decide, by decide, by decide, by decide⟩
  have blank : ['\t'].all isIndentChar = true := by decide
  refine ⟨⟨2, _, 3, ['\t'], .crlf, by omega, by omega, isTitle, blank⟩, rfl, ?_⟩
  exact parse_written ⟨2, _, 3, ['\t'], .crlf, by omega, by omega, isTitle, blank⟩

end Document

end TierLint
