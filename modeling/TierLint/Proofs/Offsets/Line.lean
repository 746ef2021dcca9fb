import TierLint.Block.Line
import TierLint.Proofs.Offsets.Basic

/-!
# Lines by offsets

A line can be kept as it lies in the text, with two offsets into it: up to the first it is written,
and behind the second its content begins (`RawLine`). Containers move the second offset; the part
between the two is pending.

Lines that consist of written, pending and content text come as such lines with offsets
(`Placed.raw`). There the offsets are places between characters, so that content, prefix and element
of a line can be cut out, and are those of the line (`content_raw`, `prefixElements_raw`,
`elements_raw`), and it stays so when a container moves its marker aside (`advance_raw`,
`advanceEmitted_raw`).
-/

set_option autoImplicit false

namespace TierLint.Offsets

open Text

/-- Number of bytes of the spaces and tabs at the start of the text. -/
def leadingWhitespace (t : Text) : Nat :=
  (t.bytes.takeWhile fun b => b == code ' ' || b == code '\t').length

/-- A line as it lies in the text: it is written up to byte `emitted`, and its content begins at
byte `start`. -/
structure RawLine where
  raw : Text
  emitted : Nat
  start : Nat
  newline : Text

/-- The runs of quote markers and of other characters of a prefix. -/
def prefixElements (rest : Text) : Except Fault (List Element) :=
  match rest with
  | [] => .ok []
  | c :: t => do
    let isMarker := c == '>'
    let length := (find? (fun d => (d == '>') != isMarker) (c :: t)).getD (byteLength (c :: t))
    let run ← sliceTo (c :: t) length
    let behind ← sliceFrom (c :: t) length
    if behind.length < (c :: t).length then
      .ok (.token (if isMarker then .blockQuoteMarker else .whitespace) run ::
        (← prefixElements behind))
    else .error .stuck
termination_by rest.length
decreasing_by assumption

/-- A text as indentation, a token of kind `k` and trailing white space. -/
def trimmedElements (k : Kind) (t : Text) : Except Fault (List Element) := do
  let leading := leadingWhitespace t
  let core := trimEnd (← sliceFrom t leading)
  let trailing ← sliceFrom t (leading + byteLength core)
  let front ← sliceTo t leading
  .ok (Element.spacing front ++ Element.tokenUnlessEmpty k core ++ Element.spacing trailing)

namespace RawLine

/-- The content. -/
def content (l : RawLine) : Except Fault Text := sliceFrom l.raw l.start

/-- The content is white space only. -/
def isBlank (l : RawLine) : Except Fault Bool := do .ok (trim (← l.content)).isEmpty

/-- Number of spaces and tabs at the start of the content. -/
def indent (l : RawLine) : Except Fault Nat := do .ok (leadingWhitespace (← l.content))

/-- The line with `n` more bytes moved aside, as far as there are any. -/
def advance (l : RawLine) (n : Nat) : RawLine :=
  { l with start := min (l.start + n) (byteLength l.raw) }

/-- The same, and all in front of the content is written. -/
def advanceEmitted (l : RawLine) (n : Nat) : RawLine :=
  { l.advance n with emitted := (l.advance n).start }

/-- What is moved aside and not written. -/
def pendingElements (l : RawLine) : Except Fault (List Element) := do
  prefixElements (← slice l.raw l.emitted l.start)

/-- The line with the given elements for its content. -/
def elementsWith (l : RawLine) (content : List Element) : Except Fault (List Element) := do
  .ok ((← l.pendingElements) ++ content ++ Element.tokenUnlessEmpty .newline l.newline)

/-- The line with its content as one token of kind `k`. -/
def elements (l : RawLine) (k : Kind) : Except Fault (List Element) := do
  l.elementsWith (Element.tokenUnlessEmpty k (← l.content))

/-- The line with its content as indentation, a token of kind `k` and trailing white space. -/
def trimmed (l : RawLine) (k : Kind) : Except Fault (List Element) := do
  l.elementsWith (← trimmedElements k (← l.content))

end RawLine

/-- A line with the part of it that is written. -/
structure Placed where
  written : Text
  line : Line

namespace Placed

/-- The line as it lies in the text. -/
def raw (p : Placed) : RawLine where
  raw := p.written ++ p.line.pending ++ p.line.content
  emitted := byteLength p.written
  start := byteLength (p.written ++ p.line.pending)
  newline := p.line.ending.text

/-- The next `n` characters of the content are moved aside. -/
def advance (p : Placed) (n : Nat) : Placed := { p with line := p.line.advance n }

/-- The next `n` characters of the content are written, and all in front of them. -/
def consume (p : Placed) (n : Nat) : Placed where
  written := p.written ++ p.line.pending ++ p.line.content.take n
  line := p.line.consume n

end Placed

/-! ## Indentation -/

variable {t u v : Text}

theorem ascii_of_isIndentChar {c : Char} (h : isIndentChar c = true) : c.toNat < 128 := by
  rw [isIndentChar, Bool.or_eq_true, beq_iff_eq, beq_iff_eq] at h
  rcases h with rfl | rfl <;> decide

/-- Spaces and tabs have one byte. -/
theorem leadingWhitespace_eq (t : Text) : leadingWhitespace t = indent t := by
  refine length_takeWhile_bytes (fun c hc => ?_) (fun b hb => ?_) (fun c hc => ?_) t
  · rw [isIndentChar, Bool.eq_iff_iff]
    simp only [Bool.or_eq_true, beq_iff_eq]
    rw [code_inj hc (by decide), code_inj hc (by decide)]
  · have large : ∀ d ∈ [' ', '\t'], b ≠ code d := by
      rintro d hd rfl
      have small : d.toNat < 128 := ascii_of_all rfl d hd
      rw [code_toNat small] at hb
      exact absurd hb (Nat.not_le.2 small)
    simp [large]
  · exact ascii_of_isIndentChar hc

theorem byteLength_indentation (t : Text) : byteLength (indentation t) = indent t := by
  exact byteLength_of_ascii fun c hc => ascii_of_isIndentChar (List.mem_takeWhile_imp hc)

theorem slice_indentation (t : Text) : sliceTo t (indent t) = .ok (indentation t) :=
  sliceTo_of_eq (indentation_append_unindented t).symm (byteLength_indentation t).symm

theorem slice_unindented (t : Text) : sliceFrom t (indent t) = .ok (unindented t) :=
  sliceFrom_of_eq (indentation_append_unindented t).symm (byteLength_indentation t).symm

/-- Trimming leaves nothing of a text exactly if it is white space only. -/
theorem isEmpty_trim (t : Text) : (trim t).isEmpty = Text.isBlank t := by
  rw [trim, trimStart, Text.isBlank, trimEnd]
  induction t with
  | nil => rfl
  | cons c t ih =>
    by_cases hc : Unicode.isWhiteSpace c = true
    · rw [List.dropWhile_cons_of_pos hc, ih, List.all_cons, hc, Bool.true_and]
    · rw [List.dropWhile_cons_of_neg hc, dropEndWhile_cons, List.all_cons, Bool.eq_false_iff.2 hc,
        Bool.and_false, Bool.false_and]
      rfl

/-- The cuts around a trimmed text do not fail, and give what the builder of such elements gives. -/
theorem trimmedElements_eq (k : Kind) (t : Text) :
    trimmedElements k t = .ok (Element.trimmed k t) := by
  have split : t = indentation t ++ trimEnd (unindented t) ++
      (unindented t).drop (trimEnd (unindented t)).length := by
    rw [List.append_assoc, trimEnd_append_drop, indentation_append_unindented]
  rw [trimmedElements, leadingWhitespace_eq, slice_unindented, ok_bind]
  simp only
  rw [sliceFrom_of_eq split (by rw [byteLength_append, byteLength_indentation]), ok_bind,
    slice_indentation, ok_bind]
  rfl

/-- The prefix consists of the runs that the line writes. -/
theorem prefixElements_eq (t : Text) :
    prefixElements t = .ok ((t.splitBy fun a b => (a == '>') == (b == '>')).map fun run =>
      .token (if run.head? == some '>' then .blockQuoteMarker else .whitespace) run) := by
  induction h : t.length using Nat.strongRecOn generalizing t with
  | ind n ih =>
    cases t with
    | nil =>
      rw [prefixElements]
      rfl
    | cons c t =>
      have same : (fun d => !((d == '>') != (c == '>'))) = fun d => (d == '>') == (c == '>') := by
        funext d
        rw [bne, Bool.not_not]
      have run := List.takeWhile_cons_of_pos (p := fun d => (d == '>') == (c == '>')) (l := t)
        (beq_self_eq_true (c == '>'))
      have behind := List.dropWhile_cons_of_pos (p := fun d => (d == '>') == (c == '>')) (l := t)
        (beq_self_eq_true (c == '>'))
      have split : c :: t = (c :: t).takeWhile (fun d => (d == '>') == (c == '>')) ++
          (c :: t).dropWhile (fun d => (d == '>') == (c == '>')) :=
        List.takeWhile_append_dropWhile.symm
      have shorter : ((c :: t).dropWhile fun d => (d == '>') == (c == '>')).length <
          (c :: t).length := by
        rw [behind]
        exact Nat.lt_succ_of_le (List.dropWhile_suffix _).length_le
      rw [prefixElements, find?_eq, same]
      rw [sliceTo_of_eq split rfl, ok_bind, sliceFrom_of_eq split rfl, ok_bind]
      -- the first run, and by induction those of what is behind it
      rw [if_pos shorter, ih _ (h ▸ shorter) _ rfl, ok_bind, splitBy_cons (· == '>'), List.map_cons,
        run]
      simp

/-! ## Lines -/

namespace Placed

theorem content_raw (p : Placed) : p.raw.content = .ok p.line.content :=
  sliceFrom_append _ _

theorem isBlank_raw (p : Placed) : p.raw.isBlank = .ok p.line.isBlank := by
  rw [RawLine.isBlank, content_raw, ok_bind, isEmpty_trim]
  rfl

theorem indent_raw (p : Placed) : p.raw.indent = .ok p.line.indent := by
  rw [RawLine.indent, content_raw, ok_bind, leadingWhitespace_eq]
  rfl

theorem pendingElements_raw (p : Placed) : p.raw.pendingElements = .ok p.line.pendingElements := by
  have pending : slice p.raw.raw p.raw.emitted p.raw.start = .ok p.line.pending :=
    slice_of_eq rfl rfl (byteLength_append ..)
  rw [RawLine.pendingElements, pending, ok_bind, prefixElements_eq]
  rfl

theorem elementsWith_raw (p : Placed) (content : List Element) :
    p.raw.elementsWith content = .ok (p.line.elementsWith content) := by
  rw [RawLine.elementsWith, p.pendingElements_raw, ok_bind]
  rfl

theorem elements_raw (p : Placed) (k : Kind) : p.raw.elements k = .ok (p.line.elements k) := by
  rw [RawLine.elements, content_raw, ok_bind, elementsWith_raw]
  rfl

theorem trimmed_raw (p : Placed) (k : Kind) :
    p.raw.trimmed k = .ok (p.line.elementsWith (Element.trimmed k p.line.content)) := by
  rw [RawLine.trimmed, content_raw, ok_bind, trimmedElements_eq, ok_bind, elementsWith_raw]

/-- As many bytes of the content are moved aside as its first `n` characters have. -/
theorem advance_raw (p : Placed) {n : Nat} (h : byteLength (p.line.content.take n) = n) :
    p.raw.advance n = (p.advance n).raw := by
  have split := (List.take_append_drop n p.line.content).symm
  have length := congrArg byteLength split
  rw [byteLength_append, h] at length
  simp only [RawLine.advance, raw, advance, Line.advance, byteLength_append, List.append_assoc,
    List.take_append_drop, RawLine.mk.injEq, true_and, and_true, h]
  omega

/-- The same where what is moved aside counts as written. -/
theorem advanceEmitted_raw (p : Placed) {n : Nat} (h : byteLength (p.line.content.take n) = n) :
    p.raw.advanceEmitted n = (p.consume n).raw := by
  have split := (List.take_append_drop n p.line.content).symm
  have length := congrArg byteLength split
  rw [byteLength_append, h] at length
  simp only [RawLine.advanceEmitted, RawLine.advance, raw, consume, Line.consume, byteLength_append,
    List.append_assoc, List.append_nil, List.take_append_drop, RawLine.mk.injEq, true_and,
    and_true, h]
  omega

end Placed

end TierLint.Offsets
