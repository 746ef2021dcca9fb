import TierLint.Block.IndentedCode
import TierLint.Proofs.Offsets.Line

/-!
# Sequences of lines by index

Recognisers go through the lines of a container by index: up to the first line that fails a test
(`firstNot`), or up to the last one that passes it when blank lines may stand between
(`lastWithin`). They take single lines (`lineAt`) and ranges (`linesBetween`), which have to lie in
the sequence.

From a place in the sequence the loops take as many lines as the recursion on the lines behind that
place (`firstNot_eq`, `lastWithin_eq`), and so all ranges that they give lie in the sequence
(`linesBetween_eq`).
-/

set_option autoImplicit false

namespace TierLint.Offsets

/-- The line with index `i`. -/
def lineAt (ls : List RawLine) (i : Nat) : Except Fault RawLine :=
  match ls[i]? with
  | some l => .ok l
  | none => .error .index

/-- The lines from index `start` up to index `stop`. -/
def linesBetween (ls : List RawLine) (start stop : Nat) : Except Fault (List RawLine) :=
  if start ≤ stop ∧ stop ≤ ls.length then .ok ((ls.take stop).drop start) else .error .index

/-- One round of the search for the first line that fails the test. -/
def firstNotStep (test : RawLine → Except Fault Bool) (ls : List RawLine) (_ : Unit) (i : Nat) :
    Except Fault (Next Unit Nat) := do
  let l ← lineAt ls i
  if ← test l then .ok (.go () (i + 1)) else .ok (.stop i)

/-- The index of the first line from `pos` on that fails the test, or that behind the last line. -/
def firstNot (test : RawLine → Except Fault Bool) (ls : List RawLine) (pos : Nat) :
    Except Fault Nat :=
  scan (firstNotStep test ls) (fun _ i => .ok i) ls.length () pos

/-- One round of the search for the last line that belongs to a block. The state is the index behind
the last one found, and whether a blank line stands in front of the next. -/
def lastWithinStep (accepts : Bool → RawLine → Except Fault Bool) (ls : List RawLine)
    (s : Nat × Bool) (i : Nat) : Except Fault (Next (Nat × Bool) Nat) := do
  let l ← lineAt ls i
  if ← l.isBlank then .ok (.go (s.1, true) (i + 1))
  else if ← accepts s.2 l then .ok (.go (i + 1, false) (i + 1))
  else .ok (.stop s.1)

/-- The index behind the last line from `pos` on that is accepted, when blank lines may stand
between accepted ones. -/
def lastWithin (accepts : Bool → RawLine → Except Fault Bool) (afterBlank : Bool)
    (ls : List RawLine) (pos : Nat) : Except Fault Nat :=
  scan (lastWithinStep accepts ls) (fun s _ => .ok s.1) ls.length (pos, afterBlank) pos

/-- The lines with their contents as tokens of kind `k`. -/
def linesElements (k : Kind) (ls : List RawLine) : Except Fault (List Element) := do
  .ok (← ls.mapM (·.elements k)).flatten

variable {ps xs : List Placed} {x : Placed} {pos : Nat}

/-- The lines as they lie in the text. -/
abbrev raws (ps : List Placed) : List RawLine := ps.map Placed.raw

/-- The lines as blocks see them. -/
abbrev lines (ps : List Placed) : List Line := ps.map Placed.line

theorem lines_nil : lines [] = [] := rfl

theorem raws_cons (x : Placed) (xs : List Placed) : raws (x :: xs) = x.raw :: raws xs := rfl

theorem lines_cons (x : Placed) (xs : List Placed) : lines (x :: xs) = x.line :: lines xs := rfl

/-! ## Places -/

theorem lt_length_of_drop (h : ps.drop pos = x :: xs) : pos < ps.length := by
  rw [← List.drop_eq_nil_iff.not.trans Nat.not_le, h]
  exact List.cons_ne_nil _ _

theorem getElem?_of_drop (h : ps.drop pos = x :: xs) : (raws ps)[pos]? = some x.raw := by
  rw [List.getElem?_map, ← List.head?_drop, h]
  rfl

theorem getElem?_of_drop_nil (h : ps.drop pos = []) : (raws ps)[pos]? = none := by
  rw [List.getElem?_map, ← List.head?_drop, h]
  rfl

theorem lineAt_of_drop (h : ps.drop pos = x :: xs) : lineAt (raws ps) pos = .ok x.raw := by
  rw [lineAt, getElem?_of_drop h]

theorem drop_succ_of_drop (h : ps.drop pos = x :: xs) : ps.drop (pos + 1) = xs := by
  rw [← List.drop_drop, h]
  rfl

theorem length_of_drop (h : ps.drop pos = x :: xs) : pos + 1 + xs.length = ps.length := by
  have := congrArg List.length h
  rw [List.length_drop, List.length_cons] at this
  omega

/-- A range behind a place is a beginning of the lines behind it. -/
theorem linesBetween_eq {n : Nat} (h : ps.drop pos = xs) (hp : pos ≤ ps.length)
    (hn : n ≤ xs.length) :
    linesBetween (raws ps) pos (pos + n) = .ok (raws (xs.take n)) := by
  have fits : pos + n ≤ ps.length := by
    rw [← h, List.length_drop] at hn
    omega
  rw [linesBetween, if_pos ⟨Nat.le_add_right .., by rwa [List.length_map]⟩, ← List.map_take,
    ← List.map_drop, List.drop_take, Nat.add_sub_cancel_left, h]

/-- What succeeds on each line succeeds on all of them. -/
theorem mapM_raws {β : Type} {f : RawLine → Except Fault β} {g : Placed → β}
    (h : ∀ x : Placed, f x.raw = .ok (g x)) (xs : List Placed) :
    (raws xs).mapM f = .ok (xs.map g) := by
  induction xs with
  | nil => rfl
  | cons x xs ih =>
    rw [raws, List.map_cons, List.mapM_cons, h, ok_bind, ih, ok_bind]
    rfl

theorem linesElements_eq (k : Kind) (xs : List Placed) :
    linesElements k (raws xs) = .ok ((lines xs).flatMap (·.elements k)) := by
  rw [linesElements, mapM_raws (fun x => x.elements_raw k), ok_bind, List.flatMap_map]
  rfl

/-! ## Loops -/

theorem lt_length_raws (h : ps.drop pos = x :: xs) : pos < (raws ps).length := by
  rw [List.length_map]
  exact lt_length_of_drop h

theorem length_raws_le (h : ps.drop pos = []) : (raws ps).length ≤ pos := by
  rw [List.length_map]
  exact List.drop_eq_nil_iff.1 h

/-- The search ends behind the lines that pass the test. -/
theorem firstNot_eq {test : RawLine → Except Fault Bool} {q : Line → Bool}
    (h : ∀ x : Placed, test x.raw = .ok (q x.line)) (hx : ps.drop pos = xs) :
    firstNot test (raws ps) pos = .ok (pos + ((lines xs).takeWhile q).length) := by
  rw [firstNot]
  induction xs generalizing pos with
  | nil =>
    rw [scan_end (length_raws_le hx)]
    rfl
  | cons x xs ih =>
    have step : firstNotStep test (raws ps) () pos =
        if q x.line then .ok (.go () (pos + 1)) else .ok (.stop pos) := by
      rw [firstNotStep, lineAt_of_drop hx, ok_bind, h, ok_bind]
    rw [lines_cons]
    by_cases passes : q x.line = true
    · rw [if_pos passes] at step
      rw [scan_go (lt_length_raws hx) step (Nat.lt_succ_self _), ih (drop_succ_of_drop hx),
        List.takeWhile_cons_of_pos passes, List.length_cons, Nat.add_assoc, Nat.add_comm 1]
    · rw [if_neg passes] at step
      rw [scan_stop (lt_length_raws hx) step, List.takeWhile_cons_of_neg passes]
      rfl

/-- What one round does with a line. -/
theorem lastWithinStep_of_drop {accepts : Bool → RawLine → Except Fault Bool}
    {q : Bool → Line → Bool} (h : ∀ b (x : Placed), accepts b x.raw = .ok (q b x.line))
    (hx : ps.drop pos = x :: xs) (s : Nat × Bool) :
    lastWithinStep accepts (raws ps) s pos =
      if x.line.isBlank then .ok (.go (s.1, true) (pos + 1))
      else if q s.2 x.line then .ok (.go (pos + 1, false) (pos + 1))
      else .ok (.stop s.1) := by
  rw [lastWithinStep, lineAt_of_drop hx, ok_bind, x.isBlank_raw, ok_bind, h, ok_bind]

/-- The search ends behind the lines that the block reaches, or at `stop` if there are none. -/
theorem scan_lastWithin {accepts : Bool → RawLine → Except Fault Bool} {q : Bool → Line → Bool}
    (h : ∀ b (x : Placed), accepts b x.raw = .ok (q b x.line)) (hx : ps.drop pos = xs) (stop : Nat)
    (afterBlank : Bool) :
    scan (lastWithinStep accepts (raws ps)) (fun s _ => .ok s.1) (raws ps).length (stop, afterBlank)
        pos =
      .ok (if Line.reach q afterBlank (lines xs) = 0 then stop
        else pos + Line.reach q afterBlank (lines xs)) := by
  induction xs generalizing pos stop afterBlank with
  | nil =>
    rw [scan_end (length_raws_le hx)]
    rfl
  | cons x xs ih =>
    have later := ih (drop_succ_of_drop hx)
    have step := lastWithinStep_of_drop h hx (stop, afterBlank)
    rw [lines_cons, Line.reach]
    by_cases blank : x.line.isBlank = true
    · -- a blank line, which belongs to the block only if more of it follows
      rw [if_pos blank] at step
      rw [scan_go (lt_length_raws hx) step (Nat.lt_succ_self _), later, if_pos blank]
      cases Line.reach q true (lines xs) with
      | zero => rfl
      | succ n =>
        rw [if_neg (Nat.succ_ne_zero n), if_neg (Nat.succ_ne_zero (n + 1)), Nat.add_assoc,
          Nat.add_comm 1]
    · rw [if_neg blank] at step
      by_cases accepted : q afterBlank x.line = true
      · -- a line of the block, behind which the block ends for now
        rw [if_pos accepted] at step
        rw [scan_go (lt_length_raws hx) step (Nat.lt_succ_self _), later, if_neg blank,
          if_pos accepted, if_neg (Nat.succ_ne_zero _)]
        cases Line.reach q false (lines xs) with
        | zero => rfl
        | succ n => rw [if_neg (Nat.succ_ne_zero n), Nat.add_assoc, Nat.add_comm 1]
      · -- any other line ends the search
        rw [if_neg accepted] at step
        rw [scan_stop (lt_length_raws hx) step, if_neg blank, if_neg accepted, if_pos rfl]

/-- From a place on, the search takes as many lines as the block reaches. -/
theorem lastWithin_eq {accepts : Bool → RawLine → Except Fault Bool} {q : Bool → Line → Bool}
    (h : ∀ b (x : Placed), accepts b x.raw = .ok (q b x.line)) (hx : ps.drop pos = xs)
    (afterBlank : Bool) :
    lastWithin accepts afterBlank (raws ps) pos =
      .ok (pos + Line.reach q afterBlank (lines xs)) := by
  rw [lastWithin, scan_lastWithin h hx]
  split
  · rename_i none
    rw [none]
    rfl
  · rfl

end TierLint.Offsets
