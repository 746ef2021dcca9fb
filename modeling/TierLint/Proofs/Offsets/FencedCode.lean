import TierLint.Proofs.Offsets.Leaf

/-!
# Fenced code by index and offset

The fence is cut out of its line behind the indentation, in characters that have one byte each, and
the lines between the fences are a range. The recogniser never fails and returns the block that the
reader returns (`fencedCode_eq`).
-/

set_option autoImplicit false

namespace TierLint.Offsets

open Text Element

variable {ps xs : List Placed} {x : Placed} {pos : Nat}

/-- The line that opens a fenced code block, given the length of its indentation and the fence. -/
def fenceOpening (l : RawLine) (count : Nat) : Except Fault (List Element) := do
  let content ← l.content
  let indent := leadingWhitespace content
  let body ← sliceFrom content indent
  let front ← sliceTo content indent
  let marker ← sliceTo body count
  let info ← trimmedElements .codeInfo (← sliceFrom body count)
  l.elementsWith (spacing front ++ [.token .codeFenceMarker marker] ++ info)

/-- The line that closes it. -/
def fenceClosing (l : RawLine) (c : Char) : Except Fault (List Element) := do
  let content ← l.content
  let indent := leadingWhitespace content
  let body ← sliceFrom content indent
  let count := runLength c body
  let front ← sliceTo content indent
  let marker ← sliceTo body count
  let behind ← sliceFrom body count
  l.elementsWith (spacing front ++ [.token .codeFenceMarker marker] ++ spacing behind)

/-- The lines between, if there are any. -/
def fenceContent (ls : List RawLine) (start stop : Nat) : Except Fault (List Element) :=
  if stop > start then do
    let inside ← linesBetween ls start stop
    .ok [.node .codeContent (← linesElements .text inside)]
  else .ok []

/-- A fenced code block. -/
def fencedCode (ls : List RawLine) (pos : Nat) : Found :=
  match ls[pos]? with
  | none => .ok none
  | some l => do
    if 3 < (← l.indent) then .ok none
    else
      let content ← l.content
      match ← fenceOpen (← sliceFrom content (leadingWhitespace content)) with
      | none => .ok none
      | some (c, count) =>
        let opening := Element.node .codeFenceOpen (← fenceOpening l count)
        let stop ← firstNot (fun l => do .ok !(← closesFence c count l)) ls (pos + 1)
        let code ← fenceContent ls (pos + 1) stop
        if stop < ls.length then
          let closing := Element.node .codeFenceClose (← fenceClosing (← lineAt ls stop) c)
          .ok (some (.node .codeBlock (opening :: code ++ [closing]), stop + 1))
        else .ok (some (.node .codeBlock (opening :: code), stop))

theorem length_of_open? {t : Text} {f : Fence} (h : Fence.open? t = some f) :
    f.length = runLength f.mark t := by
  cases t with
  | nil => cases h
  | cons c rest =>
    rw [Fence.open?] at h
    split at h
    · cases h
      exact (runLength_cons_self c rest).symm
    · cases h

/-- The elements of the opening fence are those of the reader. -/
theorem fenceOpening_raw {f : Fence} (hf : Fence.open? (unindented x.line.content) = some f)
    (code : List Line) (closing? : Option Line) :
    fenceOpening x.raw f.length =
      .ok (x.line.elementsWith (FencedCode.openingElements ⟨f, x.line, code, closing?⟩)) := by
  have ascii := (ascii_of_open? hf).1
  simp only [fenceOpening, FencedCode.openingElements, x.content_raw, leadingWhitespace_eq,
    slice_unindented, slice_indentation, ok_bind]
  rw [length_of_open? hf, sliceTo_runLength ascii, ok_bind, sliceFrom_runLength ascii, ok_bind,
    trimmedElements_eq, ok_bind, x.elementsWith_raw, take_runLength, drop_runLength]

/-- So are those of the closing fence. -/
theorem fenceClosing_raw {f : Fence} (ascii : f.mark.toNat < 128) (opening : Line)
    (code : List Line) (closing? : Option Line) :
    fenceClosing x.raw f.mark =
      .ok (x.line.elementsWith
        (FencedCode.closingElements ⟨f, opening, code, closing?⟩ x.line)) := by
  simp only [fenceClosing, FencedCode.closingElements, x.content_raw, leadingWhitespace_eq,
    slice_unindented, slice_indentation, ok_bind]
  rw [sliceTo_runLength ascii, ok_bind, sliceFrom_runLength ascii, ok_bind, x.elementsWith_raw,
    takeWhile_eq_replicate]

/-- The lines between the fences, as a range of the lines. -/
theorem fenceContent_eq {ys : List Placed} {code : List Line} {start : Nat}
    (range : linesBetween (raws ps) start (start + code.length) = .ok (raws ys))
    (same : lines ys = code) :
    fenceContent (raws ps) start (start + code.length) =
      .ok (if code.isEmpty then []
        else [.node .codeContent (code.flatMap (·.elements .text))]) := by
  rw [fenceContent, range, ok_bind, linesElements_eq, same, ok_bind]
  cases code <;> simp

/-- The recogniser takes the block that the reader takes. -/
theorem fencedCode_eq (hx : ps.drop pos = xs) :
    fencedCode (raws ps) pos = .ok ((FencedCode.read? (lines xs)).map fun (code, rest) =>
      (code.element, ps.length - rest.length)) := by
  rw [fencedCode]
  cases xs with
  | nil =>
    rw [getElem?_of_drop_nil hx]
    rfl
  | cons x xs =>
    have below := Nat.le_of_lt (lt_length_of_drop hx)
    rw [getElem?_of_drop hx, lines_cons, FencedCode.read?]
    simp only [x.indent_raw, ok_bind, x.content_raw, leadingWhitespace_eq, slice_unindented,
      fenceOpen_eq]
    by_cases deep : 3 < x.line.indent
    · rw [if_pos deep, if_neg (Nat.not_le.2 deep)]
      rfl
    rw [if_neg deep, if_pos (Nat.not_lt.1 deep)]
    cases hf : Fence.open? (unindented x.line.content) with
    | none => rfl
    | some f =>
      -- The search goes over the lines up to the first one that closes the fence.
      rcases ascii_of_open? hf with ⟨ascii, pos_⟩
      have search : firstNot (fun l => do .ok !(← closesFence f.mark f.length l)) (raws ps)
          (pos + 1) = .ok (pos + 1 + ((lines xs).takeWhile (!f.closedBy ·)).length) :=
        firstNot_eq (fun x => by rw [closesFence_raw ascii pos_]; rfl) (drop_succ_of_drop hx)
      have split : (lines xs).takeWhile (!f.closedBy ·) ++ (lines xs).dropWhile (!f.closedBy ·) =
          lines xs := List.takeWhile_append_dropWhile
      simp only [Option.map_some]
      generalize (lines xs).takeWhile (!f.closedBy ·) = code at search split ⊢
      generalize (lines xs).dropWhile (!f.closedBy ·) = behind at split ⊢
      have hx' := drop_succ_of_drop hx
      have below' : pos + 1 ≤ ps.length := lt_length_of_drop hx
      obtain ⟨ys, range, same⟩ := exists_range hx' below' split
      obtain ⟨zs, place, seen⟩ := exists_behind hx' split
      have stop := stop_of_append hx' below' split
      rw [fenceOpening_raw hf code behind.head?, ok_bind, search, ok_bind,
        fenceContent_eq range same, ok_bind]
      cases zs with
      | nil =>
        -- no line closes the fence
        subst seen
        rw [if_neg (Nat.not_lt.2 (length_raws_le place)), ← stop]
        simp [FencedCode.element]
      | cons z zs =>
        subst seen
        rw [if_pos (lt_length_raws place), lineAt_of_drop place, ok_bind,
          fenceClosing_raw ascii x.line code (some z.line), ok_bind]
        have last := stop_of_drop place
        rw [List.length_map] at last
        simp [FencedCode.element, last]

end TierLint.Offsets
