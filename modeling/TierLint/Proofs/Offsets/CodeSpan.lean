import TierLint.Proofs.Inline.CodeSpan
import TierLint.Proofs.Offsets.Basic

/-!
# Code spans by byte offsets

The scanner reads the opening backticks as bytes, and then goes through the text behind them from
character to character and from run to run. It never fails, and finds the code span that the reader
finds (`codeSpan_eq`).
-/

set_option autoImplicit false

namespace TierLint.Offsets

open Text

variable {t u v w : Text}

/-- Looks for a run of `ticks` backticks in `rest`. Found are the length of the code span with its
runs, its content, and the length of a run. -/
def codeSpanStep (rest : Text) (ticks : Nat) (_ : Unit) (pos : Nat) :
    Except Fault (Next Unit (Option (Nat × Text × Nat))) := do
  let here ← sliceFrom rest pos
  if startsBy (· == '`') here then
    let closing := (here.bytes.takeWhile (· == code '`')).length
    if closing = ticks then
      let content ← sliceTo rest pos
      .ok (.stop (some (ticks + pos + closing, content, ticks)))
    else .ok (.go () (pos + closing))
  else
    match here.head? with
    | some c => .ok (.go () (pos + c.utf8Size))
    | none => .ok (.stop none)

/-- The code span at the start of the text: its length, its content, and the length of its runs of
backticks. -/
def codeSpan (t : Text) : Except Fault (Option (Nat × Text × Nat)) :=
  let ticks := (t.bytes.takeWhile (· == code '`')).length
  if ticks = 0 then .ok none
  else do
    let rest ← sliceFrom t ticks
    scan (codeSpanStep rest ticks) (fun _ _ => .ok none) (byteLength rest) () 0

/-- In front of a run of backticks the step compares its length. -/
theorem codeSpanStep_tick {rest r : Text} (ticks : Nat) (ht : rest = u ++ '`' :: r) :
    codeSpanStep rest ticks () (byteLength u) =
      if 1 + runLength '`' r = ticks then
        .ok (.stop (some (ticks + byteLength u + (1 + runLength '`' r), u, ticks)))
      else .ok (.go () (byteLength u + (1 + runLength '`' r))) := by
  rw [codeSpanStep, ht]
  simp only [sliceFrom_append, sliceTo_append, bind, Except.bind]
  rw [if_pos (show startsBy (· == '`') ('`' :: r) = true from rfl),
    length_takeWhile_code (by decide), length_takeWhile_cons_self]

theorem codeSpanStep_other {rest r : Text} {c : Char} (hc : c ≠ '`') (ticks : Nat)
    (ht : rest = u ++ c :: r) :
    codeSpanStep rest ticks () (byteLength u) = .ok (.go () (byteLength u + c.utf8Size)) := by
  rw [codeSpanStep, ht]
  simp only [sliceFrom_append, bind, Except.bind]
  rw [if_neg (by simpa [startsBy] using hc)]
  rfl

/-- A code span is not empty. -/
theorem byteLength_source_pos {s : CodeSpan} {rest : Text} (h : CodeSpan.read? t = some (s, rest)) :
    0 < byteLength s.source := by
  have := CodeSpan.ticks_pos_of_read? h
  simp only [CodeSpan.source, CodeSpan.marker, byteLength_append]
  rw [byteLength_replicate (by decide)]
  omega

/-- The search for the closing run finds what the reader finds. -/
theorem scan_codeSpan {rest : Text} (ticks : Nat) (ht : rest = u ++ v) :
    scan (codeSpanStep rest ticks) (fun _ _ => .ok none) (byteLength rest) () (byteLength u) =
      .ok ((CodeSpan.closing? ticks v).map fun (content, _) =>
        (ticks + byteLength (u ++ content) + ticks, u ++ content, ticks)) := by
  fun_induction CodeSpan.closing? ticks v generalizing u with
  | case1 =>
    rw [scan_end (Nat.le_of_eq (by rw [ht, List.append_nil]))]
    rfl
  | case2 r run =>
    -- a run of the same length
    rename_i found
    rw [scan_stop (byteLength_lt_of_cons ht) ((codeSpanStep_tick ticks ht).trans (if_pos found))]
    rw [← found]
    simp [run]
  | case3 r run =>
    -- a run of another length, which is content
    rename_i other ih
    have split : rest = u ++ List.replicate run '`' ++ afterRun '`' r := by
      rw [ht, cons_eq_replicate_append_afterRun, List.append_assoc]
    rw [scan_past split (byteLength_replicate (by decide) _) (by omega)
      ((codeSpanStep_tick ticks ht).trans (if_neg other)), ih split, prependTo, Option.map_map]
    simp [Function.comp_def]
  | case4 c r other ih =>
    -- a character that is no backtick
    have split : rest = u ++ [c] ++ r := by
      rw [ht, List.append_assoc]
      rfl
    rw [scan_past split (by simp) c.utf8Size_pos (codeSpanStep_other other ticks ht), ih split,
      prependTo, Option.map_map]
    simp [Function.comp_def]

/-- The scanner for code spans finds what the reader finds. -/
theorem codeSpan_eq (t : Text) :
    codeSpan t = .ok ((CodeSpan.read? t).map fun (s, _) =>
      (byteLength s.source, s.content, s.ticks)) := by
  rw [codeSpan, length_takeWhile_code (by decide)]
  cases t with
  | nil => rfl
  | cons c t =>
    by_cases hc : c = '`'
    · subst hc
      have split := cons_eq_replicate_append_afterRun '`' t
      have len := byteLength_replicate (c := '`') (by decide) (1 + runLength '`' t)
      have cut := sliceFrom_of_eq split len.symm
      rw [length_takeWhile_cons_self]
      simp only
      rw [if_neg (by omega), cut]
      have found := scan_codeSpan (1 + runLength '`' t) (List.nil_append (afterRun '`' t)).symm
      simp only [byteLength_nil, List.nil_append] at found
      simp only [bind, Except.bind]
      rw [found, CodeSpan.read?, Option.map_map]
      simp [Function.comp_def, CodeSpan.source, CodeSpan.marker, byteLength_replicate,
        Nat.add_assoc]
    · rw [List.takeWhile_cons_of_neg (by simpa using hc)]
      have none : CodeSpan.read? (c :: t) = none := by
        rw [CodeSpan.read?]
        rintro rest eq
        exact hc (List.cons.inj eq).1
      rw [none]
      rfl

end TierLint.Offsets
