import TierLint.Proofs.Offsets.Inline
import TierLint.Proofs.Offsets.Leaf

/-!
# Headings by index and offset

The level of a heading is counted behind any white space, and the marker is cut out behind spaces
and tabs, as many bytes long as the level says. This cut can fail. It is the only one: where it
succeeds the parts of the line behind the marker can be cut out, and the heading is that of the
reader (`atxHeading_eq`).
-/

set_option autoImplicit false

namespace TierLint.Offsets

open Text Element

variable {ps xs : List Placed} {x : Placed} {pos : Nat}

/-- A heading's text without the closing run of hashes, and the rest. -/
def splitClosing (body : Text) : Except Fault (Text × Text) :=
  let withoutRun := dropEndWhile (· == '#') body
  if byteLength withoutRun = byteLength body then .ok (body, [])
  else if withoutRun.isEmpty then .ok ([], body)
  else if endsBy isIndentChar withoutRun then do
    let text := trimEnd withoutRun
    .ok (text, ← sliceFrom body (byteLength text))
  else .ok (body, [])

/-- The elements of a closing run of hashes with the white space in front of it. -/
def closingElements (closing : Text) : Except Fault (List Element) :=
  if closing.isEmpty then .ok []
  else do
    let hashes := trimStart closing
    let front ← sliceTo closing (← minus (byteLength closing) (byteLength hashes))
    .ok (spacing front ++ [.token .headingMarker hashes])

/-- The elements of what follows a heading's marker. -/
def headingBody (t : Text) : Except Fault (List Element) := do
  let gap := leadingWhitespace t
  let front ← sliceTo t gap
  let region ← sliceFrom t gap
  let body := trimEnd region
  let trailing ← sliceFrom region (byteLength body)
  let (text, closing) ← splitClosing body
  let inner ← inline text
  .ok (spacing front ++ [.node .headingContent inner] ++ (← closingElements closing)
    ++ spacing trailing)

/-- A heading. Its marker is cut out as many bytes long as the level says. -/
def atxHeading (ls : List RawLine) (pos : Nat) : Found :=
  match ls[pos]? with
  | none => .ok none
  | some l => do
    let content ← l.content
    match ← headingLevel content with
    | none => .ok none
    | some level =>
      let indent := leadingWhitespace content
      let front ← sliceTo content indent
      let marker ← (slice content indent (indent + level)).mapError fun _ => .marker
      let behind ← sliceFrom content (indent + level)
      let body ← headingBody behind
      let es ← l.elementsWith (spacing front
        ++ [.node .headingMarker [.token .headingMarker marker]] ++ body)
      .ok (some (.node .heading es, pos + 1))

theorem byteLength_eq_of_isPrefix {t u : Text} (h : t <+: u) :
    byteLength t = byteLength u ↔ t.length = u.length := by
  obtain ⟨v, rfl⟩ := h
  cases v with
  | nil => simp
  | cons c v =>
    have size := c.utf8Size_pos
    simp only [byteLength_append, byteLength_cons, List.length_append, List.length_cons]
    omega

/-- The closing run is split off in bytes as in characters. -/
theorem splitClosing_eq (body : Text) : splitClosing body = .ok (AtxHeading.splitClosing body) := by
  have front : dropEndWhile (· == '#') body <+: body := dropEndWhile_isPrefix _ _
  have same := byteLength_eq_of_isPrefix front
  have text : trimEnd (dropEndWhile (· == '#') body) <+: body :=
    (dropEndWhile_isPrefix _ _).trans front
  have cut : sliceFrom body (byteLength (trimEnd (dropEndWhile (· == '#') body))) =
      .ok (body.drop (trimEnd (dropEndWhile (· == '#') body)).length) :=
    sliceFrom_of_eq (append_drop_of_isPrefix text).symm rfl
  rw [splitClosing, AtxHeading.splitClosing]
  simp only [same, cut, ok_bind, beq_iff_eq]
  split
  · rfl
  · split
    · rfl
    · split <;> rfl

/-- If something is dropped at the end of a text, its last character is. -/
theorem endsBy_of_dropEndWhile {p : Char → Bool} {t : Text}
    (h : (dropEndWhile p t).length ≠ t.length) : ∃ c, t.getLast? = some c ∧ p c = true := by
  have ends : endsBy p t = true := by
    refine eq_true_of_ne_false fun stays => h ?_
    rw [dropEndWhile_eq_self stays]
  exact (Option.any_eq_true p t.getLast?).1 ends

/-- A closing part that is not empty ends with a hash. -/
theorem closing_eq_nil_or (body : Text) :
    (AtxHeading.splitClosing body).2 = [] ∨
      (AtxHeading.splitClosing body).2.getLast? = some '#' := by
  have shorter := (dropEndWhile_isPrefix (· == '#') body).length_le
  have trimmed :=
    (dropEndWhile_isPrefix Unicode.isWhiteSpace (dropEndWhile (· == '#') body)).length_le
  rw [AtxHeading.splitClosing]
  simp only [beq_iff_eq]
  split
  · exact .inl rfl
  · rename_i dropped
    obtain ⟨c, last, hash⟩ := endsBy_of_dropEndWhile dropped
    rw [eq_of_beq hash] at last
    split
    · -- hashes only
      exact .inr last
    · split
      · -- hashes behind text and blanks, of which they keep the last one
        right
        simp only
        rw [List.getLast?_drop, if_neg, last]
        rw [trimEnd]
        omega
      · exact .inl rfl

/-- The hashes of a closing part are cut off behind its white space. -/
theorem closingElements_eq {closing : Text} (h : closing = [] ∨ closing.getLast? = some '#') :
    closingElements closing = .ok (spacing (closing.takeWhile Unicode.isWhiteSpace)
      ++ tokenUnlessEmpty .headingMarker (trimStart closing)) := by
  rcases h with rfl | last
  · rfl
  · have mem : '#' ∈ closing := List.mem_of_getLast? last
    have nonempty : closing.isEmpty = false := by
      cases closing with
      | nil => cases mem
      | cons c closing => rfl
    have hashes : (trimStart closing).isEmpty = false := by
      refine Bool.eq_false_iff.2 fun empty => ?_
      have all := List.dropWhile_eq_nil_iff.1 (List.isEmpty_iff.1 empty) '#' mem
      exact absurd all (by decide)
    have split : closing = closing.takeWhile Unicode.isWhiteSpace ++ trimStart closing :=
      List.takeWhile_append_dropWhile.symm
    have length := congrArg Text.byteLength split
    rw [byteLength_append] at length
    rw [closingElements, nonempty, tokenUnlessEmpty, hashes]
    simp only [Bool.false_eq_true, if_false, minus_of_eq length, ok_bind]
    rw [sliceTo_of_eq split rfl]
    rfl

/-- Behind the marker no cut fails. -/
theorem headingBody_eq (t : Text) : headingBody t = .ok (AtxHeading.bodyElements t) := by
  have region : unindented t = trimEnd (unindented t) ++
      (unindented t).drop (trimEnd (unindented t)).length := (trimEnd_append_drop _).symm
  simp only [headingBody, leadingWhitespace_eq, slice_indentation, slice_unindented, ok_bind]
  rw [sliceFrom_of_eq region rfl, ok_bind, splitClosing_eq, ok_bind]
  rw [inline_eq, ok_bind, closingElements_eq (closing_eq_nil_or _), ok_bind,
    AtxHeading.bodyElements]
  simp

/-- A marker that cannot be split off behind the indentation cannot be cut out of the line. -/
theorem slice_marker_eq_error {t : Text} {level : Nat}
    (h : splitAtByte level (unindented t) = none) :
    slice t (indent t) (indent t + level) = .error .cut := by
  have first : splitAtByte (indent t) t = some (indentation t, unindented t) :=
    splitAtByte_eq_some_iff.2 ⟨(indentation_append_unindented t).symm, byteLength_indentation t⟩
  rw [slice, Text.slice?, if_pos (Nat.le_add_right ..), first, Nat.add_sub_cancel_left]
  simp [h]

/-- The recogniser takes the heading that the reader takes, and fails where it does. -/
theorem atxHeading_eq (hx : ps.drop pos = xs) :
    atxHeading (raws ps) pos = match AtxHeading.read? (lines xs) with
      | none => .ok none
      | some (heading, rest) => (outcome heading.element).map fun e =>
        some (e, ps.length - rest.length) := by
  rw [atxHeading]
  cases xs with
  | nil =>
    rw [getElem?_of_drop_nil hx]
    rfl
  | cons x xs =>
    rw [getElem?_of_drop hx, lines_cons, AtxHeading.read?]
    simp only [x.content_raw, ok_bind, headingLevel_eq, leadingWhitespace_eq, slice_indentation]
    cases AtxHeading.level? x.line.content with
    | none => rfl
    | some level =>
      have front := byteLength_indentation x.line.content
      simp only [Option.map_some, AtxHeading.element]
      cases cut : splitAtByte level (unindented x.line.content) with
      | none =>
        rw [slice_marker_eq_error cut]
        rfl
      | some parts =>
        rcases parts with ⟨marker, behind⟩
        obtain ⟨whole, length⟩ := eq_of_splitAtByte cut
        have parts : x.line.content = indentation x.line.content ++ marker ++ behind := by
          rw [List.append_assoc, ← whole, indentation_append_unindented]
        rw [slice_of_eq parts front.symm (by rw [front, length]),
          sliceFrom_of_eq parts (by rw [byteLength_append, front, length])]
        simp only [Except.mapError, ok_bind, headingBody_eq, x.elementsWith_raw, outcome_ok,
          Except.map, stop_of_drop hx]

end TierLint.Offsets
