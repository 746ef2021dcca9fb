import TierLint.Proofs.Block.Sequence
import TierLint.Proofs.Offsets.Leaf
import TierLint.Proofs.Offsets.ListMarker

/-!
# Containers by index and offset

A quote collects lines with their markers moved aside; a list goes from item to item, and each item
cuts its marker out of its first line and takes the indentation of its content from the others. What
is inside is read by the given function `blocks`.

If that reads the lines inside the container as the reader does (`Reads`), then the recogniser finds
what the reader finds (`quote_eq`, `list_eq`): it fails where something inside fails, and nowhere
else. No other lines are given to `blocks`.
-/

set_option autoImplicit false

namespace TierLint.Offsets

open Text Element

variable {ps xs : List Placed} {x : Placed} {pos : Nat}
  {blocks : List RawLine → Except Fault (List Element)}

/-- These lines are read as the reader reads them, wherever they come from. -/
def Reads (blocks : List RawLine → Except Fault (List Element)) (ls : List Line) : Prop :=
  ∀ ys, lines ys = ls → blocks (raws ys) = outcome (Block.elementsOf ls)

/-! ## Quotes -/

/-- One round through a quote. Collected are the lines without their markers. -/
def quoteStep (ls : List RawLine) (inner : List RawLine) (i : Nat) :
    Except Fault (Next (List RawLine) (List RawLine × Nat)) := do
  let l ← lineAt ls i
  match ← quoteMarker l with
  | some length => .ok (.go (inner ++ [l.advance length]) (i + 1))
  | none => .ok (.stop (inner, i))

/-- A block quote. -/
def quote (blocks : List RawLine → Except Fault (List Element)) (ls : List RawLine) (pos : Nat) :
    Found :=
  match ls[pos]? with
  | none => .ok none
  | some l => do
    if (← quoteMarker l).isNone then .ok none
    else
      let (inner, stop) ← scan (quoteStep ls) (fun inner i => .ok (inner, i)) ls.length [] pos
      .ok (some (.node .blockQuote (← blocks inner), stop))

/-- A quote marker has as many bytes as characters. -/
theorem byteLength_quoteMarker {l : Line} (h : Quote.isQuoted l = true) :
    byteLength (l.content.take (Quote.markerLength l)) = Quote.markerLength l := by
  obtain ⟨gap, taken, length, blanks⟩ := Quote.take_markerLength h
  have ascii : ∀ c ∈ indentation l.content ++ '>' :: gap, c.toNat < 128 := by
    intro c hc
    rcases List.mem_append.1 hc with hc | hc
    · exact ascii_of_isIndentChar (List.mem_takeWhile_imp hc)
    · rcases List.mem_cons.1 hc with rfl | hc
      · decide
      · exact ascii_of_isIndentChar (blanks c hc)
  rw [taken, byteLength_of_ascii ascii, length]

/-- The line begins with a quote marker. -/
def Placed.isQuoted (x : Placed) : Bool := Quote.isQuoted x.line

/-- The line without its quote marker. -/
def Placed.unquoted (x : Placed) : Placed := x.advance (Quote.markerLength x.line)

theorem lines_unquoted (xs : List Placed) :
    lines (xs.map Placed.unquoted) = (lines xs).map Quote.strip := by
  rw [lines, lines, List.map_map, List.map_map]
  rfl

/-- The loop collects the quoted lines from a place on. -/
theorem scan_quote (hx : ps.drop pos = xs) (inner : List Placed) :
    scan (quoteStep (raws ps)) (fun inner i => .ok (inner, i)) (raws ps).length (raws inner) pos =
      .ok (raws (inner ++ (xs.takeWhile Placed.isQuoted).map Placed.unquoted),
        pos + (xs.takeWhile Placed.isQuoted).length) := by
  induction xs generalizing pos inner with
  | nil =>
    rw [scan_end (length_raws_le hx), List.takeWhile_nil, List.map_nil, List.append_nil]
    rfl
  | cons x xs ih =>
    have step : quoteStep (raws ps) (raws inner) pos =
        if x.isQuoted then
          .ok (.go (raws inner ++ [x.raw.advance (Quote.markerLength x.line)]) (pos + 1))
        else .ok (.stop (raws inner, pos)) := by
      rw [quoteStep, lineAt_of_drop hx, ok_bind, quoteMarker_raw, ok_bind, ← Placed.isQuoted]
      cases x.isQuoted <;> rfl
    by_cases quoted : x.isQuoted = true
    · -- the line is collected
      rw [if_pos quoted, x.advance_raw (byteLength_quoteMarker quoted)] at step
      have collected : raws inner ++ [(x.advance (Quote.markerLength x.line)).raw] =
          raws (inner ++ [x.unquoted]) := by
        rw [raws, raws, List.map_append]
        rfl
      rw [collected] at step
      rw [scan_go (lt_length_raws hx) step (Nat.lt_succ_self _), ih (drop_succ_of_drop hx),
        List.takeWhile_cons_of_pos quoted, List.map_cons, List.append_assoc, List.length_cons,
        Nat.add_assoc, Nat.add_comm 1]
      rfl
    · -- the quote ends in front of the line
      rw [if_neg quoted] at step
      rw [scan_stop (lt_length_raws hx) step, List.takeWhile_cons_of_neg quoted, List.map_nil,
        List.append_nil]
      rfl

/-- The recogniser takes the quote that the reader takes, and fails only where something inside
fails. -/
theorem quote_eq (hx : ps.drop pos = xs)
    (inside : ∀ inner rest, Quote.read? (lines xs) = some (inner, rest) → Reads blocks inner) :
    quote blocks (raws ps) pos = match Quote.read? (lines xs) with
      | none => .ok none
      | some (inner, rest) => (outcome (Block.elementsOf inner)).map fun es =>
        some (.node .blockQuote es, ps.length - rest.length) := by
  rw [quote]
  cases xs with
  | nil =>
    rw [getElem?_of_drop_nil hx]
    rfl
  | cons x xs =>
    have below := Nat.le_of_lt (lt_length_of_drop hx)
    rw [getElem?_of_drop hx, lines_cons, Quote.read?]
    simp only [quoteMarker_raw, ok_bind]
    by_cases quoted : Quote.isQuoted x.line = true
    · have taken : lines ((x :: xs).takeWhile Placed.isQuoted) =
          x.line :: (lines xs).takeWhile Quote.isQuoted := by
        rw [List.takeWhile_cons_of_pos (p := Placed.isQuoted) quoted, lines_cons, lines, lines,
          List.takeWhile_map]
        rfl
      have length : ((x :: xs).takeWhile Placed.isQuoted).length =
          (x.line :: (lines xs).takeWhile Quote.isQuoted).length := by rw [← taken, List.length_map]
      have split : (x.line :: (lines xs).takeWhile Quote.isQuoted) ++
          (lines xs).dropWhile Quote.isQuoted = lines (x :: xs) := by
        rw [List.cons_append, List.takeWhile_append_dropWhile]
        rfl
      have stop := stop_of_append hx below split
      -- the loop collects the lines of the quote and stops behind them
      have search := scan_quote hx []
      rw [List.nil_append, length, ← stop, show raws [] = [] from rfl] at search
      have read : Quote.read? (lines (x :: xs)) = some
          ((x.line :: (lines xs).takeWhile Quote.isQuoted).map Quote.strip,
            (lines xs).dropWhile Quote.isQuoted) := if_pos quoted
      have asked := inside _ _ read
      rw [← taken, ← lines_unquoted] at asked
      rw [if_pos quoted, if_pos quoted, ← taken, ← lines_unquoted]
      simp only [Option.isNone_some, Bool.false_eq_true, if_false]
      rw [search, ok_bind]
      simp only
      rw [asked _ rfl]
      rfl
    · rw [if_neg quoted, if_neg quoted]
      rfl

/-! ## Items -/

/-- The line goes on with an item whose content begins at byte `offset`. -/
def itemContinues (offset : Nat) (afterBlank : Bool) (l : RawLine) : Except Fault Bool := do
  let indented := offset ≤ (← l.indent)
  let lazily ←
    if afterBlank then .ok false
    else if (← listMarker (← l.content)).isSome then .ok false
    else do .ok !(← interruptsParagraph l)
  .ok (indented || lazily)

/-- The index behind the item with marker `m` in the line with index `pos`. -/
def itemEnd (ls : List RawLine) (pos : Nat) (m : RawMarker) : Except Fault Nat := do
  let first ← (← lineAt ls pos).content
  let behind ← sliceFrom first (min m.contentOffset (Text.byteLength first))
  lastWithin (itemContinues m.contentOffset) (trim behind).isEmpty ls (pos + 1)

/-- The line without as much of its indentation as the item's content has. -/
def stripItem (offset : Nat) (l : RawLine) : Except Fault RawLine := do
  .ok (l.advance (min (← l.indent) offset))

/-- An item with marker `m`, and the index behind it. -/
def listItem (blocks : List RawLine → Except Fault (List Element)) (ls : List RawLine) (pos : Nat)
    (m : RawMarker) : Except Fault (Element × Nat) := do
  let stop ← itemEnd ls pos m
  let first ← lineAt ls pos
  let content ← first.content
  let before ← first.pendingElements
  let indentation ← sliceTo content m.indent
  let symbol ← slice content m.indent (m.indent + m.length)
  let offset := min m.contentOffset (Text.byteLength content)
  let gap ← slice content (m.indent + m.length) offset
  -- so many lines are reserved
  let _ ← minus stop pos
  let others ← (← linesBetween ls (pos + 1) stop).mapM (stripItem m.contentOffset)
  let inside ← blocks (first.advanceEmitted offset :: others)
  .ok (.node .listItem
    (before ++ spacing indentation ++ [.token .listMarker symbol] ++ spacing gap ++ inside), stop)

/-- The element for an item without the blank lines in front of it. -/
def itemElement (i : ListItem) (inside : List Element) : Element :=
  let behindIndent := i.first.content.drop i.marker.indent
  .node .listItem (i.first.pendingElements
    ++ spacing (i.first.content.take i.marker.indent)
    ++ [.token .listMarker i.marker.text]
    ++ spacing ((behindIndent.drop i.marker.text.length).take i.marker.gap)
    ++ inside)

theorem elements_eq_itemElement (i : ListItem) (inside : List Element) :
    i.elements inside = i.gap.map Line.blankElement ++ [itemElement i inside] := rfl

theorem itemContinues_raw (offset : Nat) (afterBlank : Bool) (x : Placed) :
    itemContinues offset afterBlank x.raw = .ok (ListItem.continues offset afterBlank x.line) := by
  rw [itemContinues, x.indent_raw, ok_bind, x.content_raw, ok_bind, listMarker_eq,
    interruptsParagraph_raw, ListItem.continues]
  cases afterBlank with
  | true => rfl
  | false => cases ListMarker.read? x.line.content <;> rfl

/-- An item ends behind the lines that it reaches. -/
theorem itemEnd_eq {m : ListMarker} (hx : ps.drop pos = x :: xs)
    (hm : ListMarker.read? x.line.content = some m) :
    itemEnd (raws ps) pos (.of m) = .ok (pos + 1 + ListItem.reach m x.line (lines xs)) := by
  rw [itemEnd, lineAt_of_drop hx, ok_bind, x.content_raw, ok_bind, RawMarker.of]
  simp only
  rw [sliceFrom_contentOffset hm, ok_bind, isEmpty_trim]
  exact lastWithin_eq (itemContinues_raw m.contentOffset) (drop_succ_of_drop hx) _

/-- The line without as much of its indentation as the item's content has. -/
def Placed.stripped (offset : Nat) (x : Placed) : Placed := x.advance (min x.line.indent offset)

theorem lines_stripped (offset : Nat) (xs : List Placed) :
    lines (xs.map (Placed.stripped offset)) = (lines xs).map (ListItem.strip offset) := by
  rw [lines, lines, List.map_map, List.map_map]
  rfl

/-- The indentation of an item's content is taken from a line in bytes as in characters. -/
theorem stripItem_raw (offset : Nat) (x : Placed) :
    stripItem offset x.raw = .ok (x.stripped offset).raw := by
  -- what is moved aside is a part of the indentation
  have fits : min x.line.indent offset ≤ (indentation x.line.content).length := Nat.min_le_left ..
  have front : x.line.content.take (min x.line.indent offset) =
      (indentation x.line.content).take (min x.line.indent offset) := by
    calc x.line.content.take (min x.line.indent offset)
        = (indentation x.line.content ++ unindented x.line.content).take
            (min x.line.indent offset) := by rw [indentation_append_unindented]
      _ = _ := List.take_append_of_le_length fits
  have ascii : ∀ c ∈ x.line.content.take (min x.line.indent offset), c.toNat < 128 := by
    intro c hc
    rw [front] at hc
    exact ascii_of_isIndentChar (List.mem_takeWhile_imp (List.mem_of_mem_take hc))
  have length : Text.byteLength (x.line.content.take (min x.line.indent offset)) =
      min x.line.indent offset := by
    rw [byteLength_of_ascii ascii, front, List.length_take, Nat.min_eq_left fits]
  rw [stripItem, x.indent_raw, ok_bind, x.advance_raw length]
  rfl

theorem mapM_stripItem (offset : Nat) (xs : List Placed) :
    (raws xs).mapM (stripItem offset) = .ok (raws (xs.map (Placed.stripped offset))) := by
  rw [mapM_raws (stripItem_raw offset), raws, List.map_map]
  rfl

/-- What an item takes of its first line: indentation, marker and the blanks behind it. -/
theorem slices_of_read? {t : Text} {m : ListMarker} (h : ListMarker.read? t = some m) :
    sliceTo t m.indent = .ok (t.take m.indent) ∧
      slice t m.indent (m.indent + m.text.length) = .ok m.text ∧
      slice t (m.indent + m.text.length) (min m.contentOffset (Text.byteLength t)) =
        .ok (((t.drop m.indent).drop m.text.length).take m.gap) := by
  obtain ⟨gap, rest, split, indented, length, text, blanks⟩ := split_of_read? h
  -- the lengths of the three parts, in characters and in bytes
  have front : m.indent = (indentation t).length := indented
  have bytes : Text.byteLength (indentation t) = m.indent := by
    rw [byteLength_indentation, indented]
  have symbol := byteLength_of_ascii text
  have behind : Text.byteLength gap = m.gap := by
    rw [byteLength_of_ascii fun c hc => ascii_of_isIndentChar (blanks c hc), length]
  have offset : min m.contentOffset (Text.byteLength t) = m.indent + m.text.length + m.gap := by
    have whole := congrArg Text.byteLength split
    rw [byteLength_append, byteLength_append, byteLength_append, bytes, symbol, behind] at whole
    rw [ListMarker.contentOffset]
    omega
  -- the same parts, taken by characters
  have taken : t.take m.indent = indentation t := by
    rw [front]
    exact (List.prefix_iff_eq_take.1 (List.takeWhile_prefix _)).symm
  have dropped : ((t.drop m.indent).drop m.text.length).take m.gap = gap := by
    have parts : t = (indentation t ++ m.text) ++ (gap ++ rest) := by
      rw [← List.append_assoc]
      exact split
    have both : m.indent + m.text.length = (indentation t ++ m.text).length := by
      rw [List.length_append, front]
    rw [List.drop_drop, both, ← length]
    calc (t.drop (indentation t ++ m.text).length).take gap.length
        = (((indentation t ++ m.text) ++ (gap ++ rest)).drop
            (indentation t ++ m.text).length).take gap.length := by rw [← parts]
      _ = gap := by rw [List.drop_left, List.take_left]
  refine ⟨?indent, ?symbol, ?gap⟩
  case indent =>
    rw [taken]
    exact sliceTo_of_eq (by rw [← List.append_assoc, ← List.append_assoc]; exact split) bytes.symm
  case symbol =>
    exact slice_of_eq (by rw [← List.append_assoc]; exact split) bytes.symm (by rw [bytes, symbol])
  case gap =>
    rw [dropped, offset]
    exact slice_of_eq split (by rw [byteLength_append, bytes, symbol])
      (by rw [byteLength_append, bytes, symbol, behind])

/-- An item takes the lines that it reaches, and fails only where something inside fails. -/
theorem listItem_eq {m : ListMarker} (hx : ps.drop pos = x :: xs)
    (hm : ListMarker.read? x.line.content = some m) {i : ListItem} (gap : List Line)
    (hi : i = ⟨gap, m, x.line, (lines xs).take (ListItem.reach m x.line (lines xs))⟩)
    (inside : Reads blocks i.inner) :
    listItem blocks (raws ps) pos (.of m) = (outcome (Block.elementsOf i.inner)).map fun es =>
      (itemElement i es, pos + 1 + ListItem.reach m x.line (lines xs)) := by
  have fits : ListItem.reach m x.line (lines xs) ≤ xs.length := by
    rw [← List.length_map (f := Placed.line)]
    exact Line.reach_le_length ..
  generalize hn : ListItem.reach m x.line (lines xs) = n at hi fits ⊢
  -- the parts of the first line lie between characters, and the other lines in the sequence
  obtain ⟨indentation, symbol, blanks⟩ := slices_of_read? hm
  obtain ⟨-, bytes⟩ := take_of_read? hm
  have offset : min m.contentOffset (Text.byteLength x.line.content) = m.contentOffset := by
    have whole := congrArg Text.byteLength (List.take_append_drop m.contentOffset x.line.content)
    rw [byteLength_append, bytes] at whole
    omega
  have range : linesBetween (raws ps) (pos + 1) (pos + 1 + n) = .ok (raws (xs.take n)) :=
    linesBetween_eq (drop_succ_of_drop hx) (lt_length_of_drop hx) fits
  -- the lines handed down are those inside the item
  have inner : lines (x.consume m.contentOffset ::
      (xs.take n).map (Placed.stripped m.contentOffset)) = i.inner := by
    rw [lines_cons, lines_stripped, hi, lines, List.map_take]
    rfl
  have capacity : minus (pos + 1 + n) pos = .ok (n + 1) := minus_of_eq (by omega)
  rw [← inner] at inside ⊢
  rw [listItem, itemEnd_eq hx hm, ok_bind, lineAt_of_drop hx, ok_bind, x.content_raw, ok_bind,
    x.pendingElements_raw, ok_bind, hn]
  simp only [RawMarker.of]
  rw [indentation, ok_bind, symbol, ok_bind, blanks, ok_bind, capacity, ok_bind, range, ok_bind,
    mapM_stripItem, ok_bind, offset, x.advanceEmitted_raw bytes, ← raws_cons, inside _ rfl, hi]
  rfl

/-! ## Lists -/

/-- One round through a list with markers of the given kind. The state is what is written, and the
marker of the item that follows. -/
def listStep (blocks : List RawLine → Except Fault (List Element)) (ls : List RawLine)
    (kind : MarkerKind) (s : List Element × RawMarker) (pos : Nat) :
    Except Fault (Next (List Element × RawMarker) (List Element × Nat)) := do
  let (item, stop) ← listItem blocks ls pos s.2
  let written := s.1 ++ [item]
  let next ← firstNot (·.isBlank) ls stop
  match ls[next]? with
  | none => .ok (.stop (written, stop))
  | some l =>
    match ← listMarker (← l.content) with
    | none => .ok (.stop (written, stop))
    | some m =>
      if m.kind != kind then .ok (.stop (written, stop))
      else
        let gap ← (← linesBetween ls stop next).mapM fun l => do
          .ok (.node .blankLine (← l.elements .whitespace))
        .ok (.go (written ++ gap, m) next)

/-- A list. -/
def list (blocks : List RawLine → Except Fault (List Element)) (ls : List RawLine) (pos : Nat) :
    Found :=
  match ls[pos]? with
  | none => .ok none
  | some l => do
    match ← listMarker (← l.content) with
    | none => .ok none
    | some m =>
      let (items, stop) ←
        scan (listStep blocks ls m.kind) (fun _ _ => .error .index) ls.length ([], m) pos
      .ok (some (.node .list items, stop))

/-- The elements for an item and the blank lines in front of it. -/
def itemTree (i : ListItem) : Except ParseError (List Element) := do
  .ok (i.elements (← Block.elementsOf i.inner))

theorem mapM_blank (xs : List Placed) :
    ((raws xs).mapM fun l => do .ok (Element.node .blankLine (← l.elements .whitespace))) =
      (.ok ((lines xs).map Line.blankElement) : Except Fault (List Element)) := by
  rw [mapM_raws fun x => by rw [x.elements_raw]; rfl, lines, List.map_map]
  rfl

/-- One round goes on exactly if behind the blank lines a marker of the same kind follows. -/
theorem listStep_eq {m : ListMarker} (hx : ps.drop pos = x :: xs)
    (hm : ListMarker.read? x.line.content = some m) {i : ListItem} (gap : List Line) {n : Nat}
    (hn : ListItem.reach m x.line (lines xs) = n) (hi : i = ⟨gap, m, x.line, (lines xs).take n⟩)
    (inside : Reads blocks i.inner) (kind : MarkerKind) (written : List Element) :
    listStep blocks (raws ps) kind (written, .of m) pos = (do
      let es ← outcome (Block.elementsOf i.inner)
      let stop := Next.stop (written ++ [itemElement i es], pos + 1 + n)
      match ((lines xs).drop n).dropWhile (·.isBlank) with
      | [] => .ok stop
      | next :: _ =>
        match ListMarker.read? next.content with
        | some m' =>
          if m'.kind = kind then
            let blanks := ((lines xs).drop n).takeWhile (·.isBlank)
            .ok (.go (written ++ [itemElement i es] ++ blanks.map Line.blankElement, .of m')
              (pos + 1 + n + blanks.length))
          else .ok stop
        | none => .ok stop) := by
  subst hn
  rw [listStep, listItem_eq hx hm gap hi inside]
  cases outcome (Block.elementsOf i.inner) with
  | error f => rfl
  | ok es =>
    -- `zs` stand behind the item, `ws` behind the blank lines
    have item : (x.line :: (lines xs).take (ListItem.reach m x.line (lines xs))) ++
        (lines xs).drop (ListItem.reach m x.line (lines xs)) = lines (x :: xs) := by
      rw [List.cons_append, List.take_append_drop]
      rfl
    have fits := Line.reach_le_length (ListItem.continues m.contentOffset)
      (isBlank (x.line.content.drop m.contentOffset)) (lines xs)
    rw [← ListItem.reach] at fits
    generalize ListItem.reach m x.line (lines xs) = n at item fits hi ⊢
    obtain ⟨zs, place, seen⟩ := exists_behind hx item
    rw [List.length_cons, List.length_take, Nat.min_eq_left fits, Nat.add_comm n,
      ← Nat.add_assoc] at place
    rw [← seen]
    have blank := firstNot_eq Placed.isBlank_raw place
    have split : (lines zs).takeWhile (·.isBlank) ++ (lines zs).dropWhile (·.isBlank) = lines zs :=
      List.takeWhile_append_dropWhile
    have inRange : pos + 1 + n ≤ ps.length := by
      have := length_of_drop hx
      rw [List.length_map] at fits
      omega
    obtain ⟨bs, range, blanks⟩ := exists_range place inRange split
    obtain ⟨ws, further, behind⟩ := exists_behind place split
    simp only [Except.map, ok_bind, blank]
    rw [← behind]
    cases ws with
    | nil =>
      -- the lines end there
      rw [getElem?_of_drop_nil further]
      rfl
    | cons w ws =>
      rw [getElem?_of_drop further]
      simp only [w.content_raw, ok_bind, listMarker_eq, lines_cons]
      cases ListMarker.read? w.line.content with
      | none => rfl
      | some m' =>
        by_cases same : m'.kind = kind
        · simp only [Option.map_some, RawMarker.of, same, bne_self_eq_false, Bool.false_eq_true,
            if_false, if_true, range, ok_bind, mapM_blank, blanks]
        · have other : (m'.kind != kind) = true := by rwa [bne_iff_ne]
          simp only [Option.map_some, RawMarker.of, other, same, if_true, if_false]

theorem stop_of_item {n : Nat} (hx : ps.drop pos = x :: xs) (fits : n ≤ (lines xs).length) :
    ps.length - ((lines xs).drop n).length = pos + 1 + n := by
  have whole := length_of_drop hx
  rw [List.length_map] at fits
  rw [List.length_drop, List.length_map]
  omega

/-- If no marker of the kind follows, a round writes the item and stops. -/
theorem listStep_last {m : ListMarker} (hx : ps.drop pos = x :: xs)
    (hm : ListMarker.read? x.line.content = some m) {i : ListItem} (gap : List Line) {n : Nat}
    (hn : ListItem.reach m x.line (lines xs) = n) (hi : i = ⟨gap, m, x.line, (lines xs).take n⟩)
    (inside : Reads blocks i.inner) (written : List Element)
    (last : ∀ next behind, ((lines xs).drop n).dropWhile (·.isBlank) = next :: behind →
      ∀ m', ListMarker.read? next.content = some m' → m'.kind ≠ m.kind) :
    listStep blocks (raws ps) m.kind (written, .of m) pos = (do
      let es ← outcome (Block.elementsOf i.inner)
      .ok (.stop (written ++ [itemElement i es], pos + 1 + n))) := by
  rw [listStep_eq hx hm gap hn hi inside]
  cases rest : ((lines xs).drop n).dropWhile (·.isBlank) with
  | nil => rfl
  | cons next behind =>
    cases hm' : ListMarker.read? next.content with
    | none => simp only [hm']
    | some m' => simp only [hm', if_neg (last next behind rest m' hm')]

/-- The last item of a list. -/
theorem scan_last {m : ListMarker} (hx : ps.drop pos = x :: xs)
    (hm : ListMarker.read? x.line.content = some m) {i : ListItem} (gap : List Line) {n : Nat}
    (hn : ListItem.reach m x.line (lines xs) = n) (hi : i = ⟨gap, m, x.line, (lines xs).take n⟩)
    (inside : Reads blocks i.inner) (written : List Element)
    (last : ∀ next behind, ((lines xs).drop n).dropWhile (·.isBlank) = next :: behind →
      ∀ m', ListMarker.read? next.content = some m' → m'.kind ≠ m.kind) :
    scan (listStep blocks (raws ps) m.kind) (fun _ _ => .error .index) (raws ps).length
        (written ++ gap.map Line.blankElement, .of m) pos =
      (outcome ([i].mapM itemTree)).map fun es =>
        (written ++ es.flatten, ps.length - ((lines xs).drop n).length) := by
  have inRange := lt_length_raws hx
  have step := listStep_last hx hm gap hn hi inside (written ++ gap.map Line.blankElement) last
  have fits : n ≤ (lines xs).length := hn ▸ Line.reach_le_length ..
  have same : i.gap = gap := by rw [hi]
  rw [List.mapM_cons, List.mapM_nil, itemTree, stop_of_item hx fits]
  cases inner : Block.elementsOf i.inner with
  | error e =>
    rw [inner] at step
    exact scan_error inRange step
  | ok es =>
    rw [inner] at step
    rw [scan_stop inRange step, List.append_assoc, ← same, ← elements_eq_itemElement]
    change _ = Except.ok (written ++ [i.elements es].flatten, pos + 1 + n)
    rw [List.flatten_singleton]

/-- An item that others follow. -/
theorem scan_further {kind : MarkerKind} {m m' : RawMarker} (i : ListItem) {items : List ListItem}
    {written blanks : List Element} {next stop : Nat} (inRange : pos < (raws ps).length)
    (step : listStep blocks (raws ps) kind (written ++ i.gap.map Line.blankElement, m) pos = (do
      let es ← outcome (Block.elementsOf i.inner)
      .ok (.go (written ++ i.gap.map Line.blankElement ++ [itemElement i es] ++ blanks, m') next)))
    (further : pos < next)
    (others : ∀ written', scan (listStep blocks (raws ps) kind) (fun _ _ => .error .index)
        (raws ps).length (written' ++ blanks, m') next =
      (outcome (items.mapM itemTree)).map fun es => (written' ++ es.flatten, stop)) :
    scan (listStep blocks (raws ps) kind) (fun _ _ => .error .index) (raws ps).length
        (written ++ i.gap.map Line.blankElement, m) pos =
      (outcome ((i :: items).mapM itemTree)).map fun es => (written ++ es.flatten, stop) := by
  rw [List.mapM_cons, itemTree]
  cases inner : Block.elementsOf i.inner with
  | error e =>
    rw [inner] at step
    exact scan_error inRange step
  | ok es =>
    rw [inner] at step
    rw [scan_go inRange step further, others, List.append_assoc, ← elements_eq_itemElement]
    cases items.mapM itemTree with
    | error e => rfl
    | ok rest =>
      change Except.ok (written ++ i.elements es ++ rest.flatten, stop) =
        Except.ok (written ++ (i.elements es :: rest).flatten, stop)
      rw [List.flatten_cons, List.append_assoc]

/-- Where the line behind an item and some blank lines stands. -/
theorem exists_next {n : Nat} {next : Line} {behind : List Line} (hx : ps.drop pos = x :: xs)
    (h : ((lines xs).drop n).dropWhile (·.isBlank) = next :: behind) :
    ∃ y ys, ps.drop (pos + 1 + n + (((lines xs).drop n).takeWhile (·.isBlank)).length) = y :: ys ∧
      y.line = next ∧ lines ys = behind := by
  have rest : ps.drop (pos + 1 + n) = xs.drop n := by
    rw [← List.drop_drop, drop_succ_of_drop hx]
  have same : lines (xs.drop n) = (lines xs).drop n := List.map_drop ..
  have split : (lines (xs.drop n)).takeWhile (·.isBlank) ++ next :: behind = lines (xs.drop n) := by
    rw [← h, same]
    exact List.takeWhile_append_dropWhile
  obtain ⟨zs, place, seen⟩ := exists_behind rest split
  rw [same] at place
  cases zs with
  | nil => cases seen
  | cons y ys =>
    cases seen
    exact ⟨y, ys, place, rfl, rfl⟩

/-- The loop goes through the items in order, and takes the blank lines between them along. -/
theorem scan_list {m : ListMarker} {first : Line} {ls : List Line} (gap : List Line)
    (hm : ListMarker.read? first.content = some m)
    (inside : ∀ i ∈ (ListItem.sequence gap m first ls).1, Reads blocks i.inner)
    (hx : ps.drop pos = x :: xs) (hf : x.line = first) (hls : lines xs = ls)
    (written : List Element) :
    scan (listStep blocks (raws ps) m.kind) (fun _ _ => .error .index) (raws ps).length
        (written ++ gap.map Line.blankElement, .of m) pos =
      (outcome ((ListItem.sequence gap m first ls).1.mapM itemTree)).map fun es =>
        (written ++ es.flatten, ps.length - (ListItem.sequence gap m first ls).2.length) := by
  -- along the recursion that reads the items; one round of the loop for each of them
  fun_induction ListItem.sequence gap m first ls generalizing pos x xs written with
  | case1 gap m first ls n =>
    -- only blank lines are left
    rename_i item nothing
    subst hf hls
    refine scan_last hx hm gap rfl rfl (inside _ List.mem_cons_self) written ?_
    intro next behind more
    cases nothing.symm.trans more
  | case2 gap m first ls n item next behind split m' hm' same items =>
    -- an item of the same kind follows
    rename_i rest eq ih
    subst hf hls
    have reached : ListItem.reach m x.line (lines xs) = n := rfl
    obtain ⟨here, later⟩ := List.forall_mem_cons.1 inside
    have step := listStep_eq hx hm gap reached (rfl : item = _) here m.kind
      (written ++ gap.map Line.blankElement)
    simp only [split, hm', if_pos same] at step
    obtain ⟨y, ys, place, hy, hys⟩ := exists_next hx split
    rw [eq, same] at ih
    refine scan_further item (lt_length_raws hx) step (by omega) ?_
    intro written'
    exact ih hm' later place hy hys written'
  | case3 gap m first ls n item next behind split m' =>
    -- an item of another kind follows
    rename_i hm' other
    subst hf hls
    refine scan_last hx hm gap rfl rfl (inside _ List.mem_cons_self) written ?_
    intro next' behind' split' m'' hm''
    cases split.symm.trans split'
    cases hm'.symm.trans hm''
    exact other
  | case4 gap m first ls n item next behind =>
    -- no item follows
    rename_i split no
    subst hf hls
    refine scan_last hx hm gap rfl rfl (inside _ List.mem_cons_self) written ?_
    intro next' behind' split' m' hm'
    cases split.symm.trans split'
    cases no.symm.trans hm'

/-- The recogniser takes the items that the reader takes, and fails only where something inside one
of them fails. -/
theorem list_eq (hx : ps.drop pos = xs)
    (inside : ∀ items rest, ListItem.read? (lines xs) = some (items, rest) →
      ∀ i ∈ items, Reads blocks i.inner) :
    list blocks (raws ps) pos = match ListItem.read? (lines xs) with
      | none => .ok none
      | some (items, rest) => (outcome (items.mapM itemTree)).map fun es =>
        some (.node .list es.flatten, ps.length - rest.length) := by
  rw [list]
  cases xs with
  | nil =>
    rw [getElem?_of_drop_nil hx]
    rfl
  | cons x xs =>
    rw [getElem?_of_drop hx, lines_cons, ListItem.read?]
    simp only [x.content_raw, ok_bind, listMarker_eq]
    cases hm : ListMarker.read? x.line.content with
    | none => rfl
    | some m =>
      have read : ListItem.read? (lines (x :: xs)) =
          some (ListItem.sequence [] m x.line (lines xs)) := by
        rw [lines_cons, ListItem.read?, hm]
        rfl
      have items : scan (listStep blocks (raws ps) m.kind) (fun _ _ => .error .index)
          (raws ps).length ([], .of m) pos = _ :=
        scan_list [] hm (inside _ _ read) hx rfl rfl []
      simp only [Option.map_some, RawMarker.of] at items ⊢
      rw [items]
      cases outcome ((ListItem.sequence [] m x.line (lines xs)).1.mapM itemTree) <;> rfl

end TierLint.Offsets
