import TierLint.Block.Interruption
import TierLint.Proofs.Block.Lossless
import TierLint.Proofs.Offsets.Opening

/-!
# List markers by byte offsets

A list marker is measured in bytes: its indentation, the bullet or the digits with their delimiter,
and the blanks behind it, of which not all need to belong to it. What belongs to it is ASCII, so
that its parts and the content behind it can be cut out, and the marker is that of the line
(`listMarker_eq`, `sliceFrom_contentOffset`). With it the test for what ends a paragraph is complete
(`interruptsParagraph_raw`).
-/

set_option autoImplicit false

namespace TierLint.Offsets

open Text

variable {t u v : Text}

/-! ## Markers -/

/-- The byte of a decimal digit. -/
def isDigitByte (b : UInt8) : Bool := 48 ≤ b.toNat && b.toNat ≤ 57

/-- A list marker: its kind, its indentation and length in bytes, where the content of its item
begins, and the number it shows. -/
structure RawMarker where
  kind : MarkerKind
  indent : Nat
  length : Nat
  contentOffset : Nat
  number? : Option Nat

/-- The marker with its text measured. -/
def RawMarker.of (m : ListMarker) : RawMarker :=
  ⟨m.kind, m.indent, m.text.length, m.contentOffset, m.number?⟩

/-- The bullet or number at the start of the text: its kind, its length and its number. -/
def markerSymbol (t : Text) : Except Fault (Option (MarkerKind × Nat × Option Nat)) :=
  match t with
  | [] => .ok none
  | c :: rest =>
    if c == '-' || c == '*' || c == '+' then .ok (some (.bullet c, 1, none))
    else
      let digits := ((Text.bytes (c :: rest)).takeWhile isDigitByte).length
      if digits = 0 || 9 < digits then .ok none
      else do
        match ← sliceFrom (c :: rest) digits with
        | [] => .ok none
        | d :: _ =>
          if d != '.' && d != ')' then .ok none
          else
            let number ← sliceTo (c :: rest) digits
            .ok (some (.ordered d, digits + 1, some (ListMarker.decimal number)))

/-- The list marker of a line with this content. -/
def listMarker (t : Text) : Except Fault (Option RawMarker) :=
  let indent := leadingWhitespace t
  if 3 < indent then .ok none
  else do
    let body ← sliceFrom t indent
    match ← markerSymbol body with
    | none => .ok none
    | some (kind, length, number?) =>
      let behind ← sliceFrom body length
      if !behind.isEmpty && !startsBy isIndentChar behind then .ok none
      else
        let blanks := leadingWhitespace behind
        let gap := if (trim behind).isEmpty || 4 < blanks then min blanks 1 else blanks
        .ok (some ⟨kind, indent, length, indent + length + gap, number?⟩)

/-- A line with this content begins an item that may end a paragraph. -/
def itemInterrupts (t : Text) : Except Fault Bool := do
  match ← listMarker t with
  | some m =>
    let behind ← sliceFrom t (min m.contentOffset (byteLength t))
    .ok (!(trim behind).isEmpty && match m.kind with
      | .bullet _ => true
      | .ordered _ => m.number? == some 1)
  | none => .ok false

theorem length_digits (t : Text) :
    (t.bytes.takeWhile isDigitByte).length = (t.takeWhile Char.isDigit).length := by
  refine length_takeWhile_bytes (fun c hc => ?_) (fun b hb => ?_) (fun c => ascii_of_isDigit) t
  · rw [isDigitByte, code_toNat hc, Bool.eq_iff_iff, Char.isDigit, Bool.and_eq_true,
      Bool.and_eq_true, decide_eq_true_eq, decide_eq_true_eq, decide_eq_true_eq, decide_eq_true_eq]
    exact Iff.rfl
  · rw [isDigitByte, Bool.and_eq_false_iff, decide_eq_false_iff_not, decide_eq_false_iff_not]
    omega

theorem byteLength_digits (t : Text) :
    byteLength (t.takeWhile Char.isDigit) = (t.takeWhile Char.isDigit).length :=
  byteLength_of_ascii fun _ hc => ascii_of_isDigit (List.mem_takeWhile_imp hc)

/-- The bullet or number is found that the reader finds, and the cuts behind its digits do not
fail. -/
theorem markerSymbol_eq (t : Text) :
    markerSymbol t = .ok ((ListMarker.symbol? t).map fun (kind, number?, text, _) =>
      (kind, text.length, number?)) := by
  cases t with
  | nil => rfl
  | cons c rest =>
    rw [markerSymbol, ListMarker.symbol?]
    cases bullet : c == '-' || c == '*' || c == '+' with
    | true => rfl
    | false =>
      have split : c :: rest =
          (c :: rest).takeWhile Char.isDigit ++ (c :: rest).dropWhile Char.isDigit :=
        List.takeWhile_append_dropWhile.symm
      have front : sliceTo (c :: rest) ((c :: rest).takeWhile Char.isDigit).length =
          .ok ((c :: rest).takeWhile Char.isDigit) :=
        sliceTo_of_eq split (byteLength_digits _).symm
      have behind : sliceFrom (c :: rest) ((c :: rest).takeWhile Char.isDigit).length =
          .ok ((c :: rest).dropWhile Char.isDigit) :=
        sliceFrom_of_eq split (byteLength_digits _).symm
      simp only [length_digits, behind, front, ok_bind, Bool.false_eq_true, if_false]
      by_cases many : ((c :: rest).takeWhile Char.isDigit).length = 0 ∨
          9 < ((c :: rest).takeWhile Char.isDigit).length
      · -- no digits, or too many of them
        have refused : (decide (1 ≤ ((c :: rest).takeWhile Char.isDigit).length) &&
            decide (((c :: rest).takeWhile Char.isDigit).length ≤ 9)) = false := by
          rw [Bool.and_eq_false_iff, decide_eq_false_iff_not, decide_eq_false_iff_not]
          omega
        rw [if_pos (by rwa [Bool.or_eq_true, decide_eq_true_eq, decide_eq_true_eq]), refused]
        cases (c :: rest).dropWhile Char.isDigit <;> rfl
      · have accepted : (decide (1 ≤ ((c :: rest).takeWhile Char.isDigit).length) &&
            decide (((c :: rest).takeWhile Char.isDigit).length ≤ 9)) = true := by
          rw [Bool.and_eq_true, decide_eq_true_eq, decide_eq_true_eq]
          omega
        rw [if_neg (by rwa [Bool.or_eq_true, decide_eq_true_eq, decide_eq_true_eq]), accepted]
        cases (c :: rest).dropWhile Char.isDigit with
        | nil => rfl
        | cons d behind =>
          have delimiter : (d != '.' && d != ')') = !(d == '.' || d == ')') := by
            rw [Bool.not_or]
            rfl
          simp only [delimiter, Bool.true_and]
          cases d == '.' || d == ')' with
          | true => simp
          | false => rfl

theorem ascii_of_symbol? {kind : MarkerKind} {number? : Option Nat} {text behind : Text}
    (h : ListMarker.symbol? t = some (kind, number?, text, behind)) :
    ∀ c ∈ text, c.toNat < 128 := by
  rcases (ListMarker.symbol?_cases h).2 with
    ⟨b, bullet, -, -, rfl⟩ | ⟨ds, d, digits, last, -, -, rfl⟩
  · intro c hc
    rw [List.mem_singleton.1 hc]
    rcases bullet with rfl | rfl | rfl <;> decide
  · intro c hc
    rcases List.mem_append.1 hc with hc | hc
    · exact ascii_of_isDigit (digits c hc)
    · rw [List.mem_singleton.1 hc]
      rcases last with rfl | rfl <;> decide

/-- The marker is found that the line is tested for. -/
theorem listMarker_eq (t : Text) : listMarker t = .ok ((ListMarker.read? t).map RawMarker.of) := by
  rw [listMarker, leadingWhitespace_eq, slice_unindented, ListMarker.read?]
  by_cases deep : 3 < indent t
  · simp only [if_pos deep, decide_eq_false (Nat.not_le.2 deep), Bool.false_and]
    cases ListMarker.symbol? (unindented t) <;> rfl
  simp only [if_neg deep, decide_eq_true (Nat.not_lt.1 deep), Bool.true_and, ok_bind,
    markerSymbol_eq]
  cases symbol : ListMarker.symbol? (unindented t) with
  | none => rfl
  | some found =>
    rcases found with ⟨kind, number?, text, behind⟩
    have split := (ListMarker.symbol?_cases symbol).1
    have length := byteLength_of_ascii (ascii_of_symbol? symbol)
    have separated : (!behind.isEmpty && !startsBy isIndentChar behind) =
        !(behind.isEmpty || startsBy isIndentChar behind) := (Bool.not_or ..).symm
    simp only [Option.map_some]
    rw [sliceFrom_of_eq split.symm length.symm, ok_bind]
    simp only [separated, leadingWhitespace_eq, isEmpty_trim]
    cases behind.isEmpty || startsBy isIndentChar behind <;> rfl

/-- A marker stands in its line between the indentation and some of the blanks behind it. -/
theorem split_of_read? {m : ListMarker} (h : ListMarker.read? t = some m) :
    ∃ gap rest, t = indentation t ++ m.text ++ gap ++ rest ∧ m.indent = indent t ∧
      gap.length = m.gap ∧ (∀ c ∈ m.text, c.toNat < 128) ∧ ∀ c ∈ gap, isIndentChar c = true := by
  rcases ListMarker.read?_cases h with ⟨behind, symbol, indented, fits⟩
  have front : behind.take m.gap = (indentation behind).take m.gap := by
    calc behind.take m.gap = (indentation behind ++ unindented behind).take m.gap := by
          rw [indentation_append_unindented]
      _ = (indentation behind).take m.gap := List.take_append_of_le_length fits
  refine ⟨behind.take m.gap, behind.drop m.gap, ?_, indented, ?_, ascii_of_symbol? symbol, ?_⟩
  · rw [List.append_assoc, List.take_append_drop, List.append_assoc,
      (ListMarker.symbol?_cases symbol).1, indentation_append_unindented]
  · rw [front, List.length_take]
    exact Nat.min_eq_left fits
  · intro c hc
    rw [front] at hc
    exact List.mem_takeWhile_imp (List.mem_of_mem_take hc)

/-- What stands in front of an item's content, and its length in bytes. -/
theorem take_of_read? {m : ListMarker} (h : ListMarker.read? t = some m) :
    (t.take m.contentOffset).length = m.contentOffset ∧
      byteLength (t.take m.contentOffset) = m.contentOffset := by
  obtain ⟨gap, rest, split, indented, length, text, blanks⟩ := split_of_read? h
  have front : (indentation t ++ m.text ++ gap).length = m.contentOffset := by
    rw [List.length_append, List.length_append, length, ListMarker.contentOffset, indented]
    rfl
  have taken : t.take m.contentOffset = indentation t ++ m.text ++ gap := by
    calc t.take m.contentOffset
        = (indentation t ++ m.text ++ gap ++ rest).take
            (indentation t ++ m.text ++ gap).length := by rw [front, ← split]
      _ = indentation t ++ m.text ++ gap := List.take_left
  have ascii : ∀ c ∈ indentation t ++ m.text ++ gap, c.toNat < 128 := by
    intro c hc
    rcases List.mem_append.1 hc with hc | hc
    · rcases List.mem_append.1 hc with hc | hc
      · exact ascii_of_isIndentChar (List.mem_takeWhile_imp hc)
      · exact text c hc
    · exact ascii_of_isIndentChar (blanks c hc)
  rw [taken, byteLength_of_ascii ascii]
  exact ⟨front, front⟩

theorem sliceFrom_contentOffset {m : ListMarker} (h : ListMarker.read? t = some m) :
    sliceFrom t (min m.contentOffset (byteLength t)) = .ok (t.drop m.contentOffset) := by
  obtain ⟨-, length⟩ := take_of_read? h
  have split := (List.take_append_drop m.contentOffset t).symm
  have fits : m.contentOffset ≤ byteLength t := by
    have whole := congrArg byteLength split
    rw [byteLength_append, length] at whole
    omega
  rw [Nat.min_eq_left fits]
  exact sliceFrom_of_eq split length.symm

/-- A bullet shows no number, any other marker does; so the two tests on a marker agree. -/
theorem kind_of_read? {m : ListMarker} (h : ListMarker.read? t = some m) :
    (match m.kind with
      | .bullet _ => true
      | .ordered _ => m.number? == some 1) = (m.number?.isNone || m.number? == some 1) := by
  rcases ListMarker.read?_cases h with ⟨behind, symbol, -, -⟩
  rcases (ListMarker.symbol?_cases symbol).2 with
    ⟨c, -, kind, number, -⟩ | ⟨digits, d, -, -, kind, number, -⟩
  · rw [kind, number]
    rfl
  · rw [kind, number]
    rfl

theorem itemInterrupts_eq (t : Text) : itemInterrupts t = .ok (ListMarker.interrupts t) := by
  rw [itemInterrupts, listMarker_eq, ok_bind, ListMarker.interrupts]
  cases found : ListMarker.read? t with
  | none => rfl
  | some m =>
    simp only [Option.map_some, RawMarker.of, sliceFrom_contentOffset found, ok_bind, isEmpty_trim,
      kind_of_read? found]

/-! ## Interruptions -/

/-- The line opens a block that ends a paragraph in front of it. -/
def interruptsParagraph (l : RawLine) : Except Fault Bool := do
  let content ← l.content
  if 3 < (← l.indent) then .ok false
  else if (← fenceOpen (trimStart content)).isSome then .ok true
  else if (← headingLevel content).isSome then .ok true
  else if ← isThematicBreak content then .ok true
  else if startsBy (· == '>') (trimStart content) then .ok true
  else if ← itemInterrupts content then .ok true
  else startsHtml (trimStart content)

/-- The line opens a block that ends a paragraph where the reader says so. -/
theorem interruptsParagraph_raw (p : Placed) :
    interruptsParagraph p.raw = .ok p.line.interruptsParagraph := by
  rw [interruptsParagraph, p.content_raw, ok_bind, p.indent_raw, ok_bind, Line.interruptsParagraph]
  by_cases deep : 3 < p.line.indent
  · rw [if_pos deep, decide_eq_false (Nat.not_le.2 deep)]
    rfl
  rw [if_neg deep, decide_eq_true (Nat.not_lt.1 deep), fenceOpen_eq, ok_bind, headingLevel_eq,
    isThematicBreak_eq, itemInterrupts_eq, startsHtml_eq]
  simp only [ok_bind, Option.isSome_map, Bool.true_and]
  cases (Fence.open? (trimStart p.line.content)).isSome <;>
    cases (AtxHeading.level? p.line.content).isSome <;>
    cases ThematicBreak.isBreak p.line.content <;>
    cases startsBy (· == '>') (trimStart p.line.content) <;>
    cases ListMarker.interrupts p.line.content <;> rfl

end TierLint.Offsets
