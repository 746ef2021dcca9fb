import Mathlib.Data.List.DropRight
import TierLint.Lint.Position
import TierLint.Proofs.Text.Stretch

/-!
# Positions behind a text

The position of an offset at the end of a character is the one behind the text in front of it
(`Position.ofOffset_of_isPrefix`): its line counts the line feeds in that text (`line_past`), and
its column the characters behind the last of them (`column_past_start`). A longer text leads further
on, by line or by column (`before_past`), so offsets between characters can be told apart by their
positions, and an offset that is none of them has the position of the next one
(`Location.faithful`).
-/

set_option autoImplicit false

namespace TierLint

open Text

namespace Position

/-- The position behind a text that stands at `p`. -/
def past (p : Position) (t : Text) : Position := t.foldl after p

@[simp] theorem past_nil (p : Position) : p.past [] = p := rfl

@[simp] theorem past_cons (p : Position) (c : Char) (t : Text) :
    p.past (c :: t) = (p.after c).past t := rfl

theorem past_append (p : Position) (a b : Text) : p.past (a ++ b) = (p.past a).past b :=
  List.foldl_append

/-- An offset behind a text is reached from the position behind it. -/
theorem advance_add (p : Position) (a b : Text) (n : Nat) :
    p.advance (byteLength a + n) (a ++ b) = (p.past a).advance n b := by
  induction a generalizing p with
  | nil => rw [byteLength_nil, Nat.zero_add, List.nil_append, past_nil]
  | cons c a ih =>
    have := c.utf8Size_pos
    rw [List.cons_append, advance, byteLength_cons, if_neg (by omega), Nat.add_assoc,
      Nat.add_sub_cancel_left, ih, past_cons]

@[simp] theorem advance_zero (p : Position) (t : Text) : p.advance 0 t = p := by
  cases t <;> simp [advance]

theorem advance_append (p : Position) (a b : Text) :
    p.advance (byteLength a) (a ++ b) = p.past a := by
  rw [← Nat.add_zero (byteLength a), advance_add, advance_zero]

/-- The offset at the end of a beginning of a text has the position behind it. -/
theorem ofOffset_of_isPrefix {b t : Text} (h : b <+: t) :
    ofOffset t (byteLength b) = start.past b := by
  obtain ⟨rest, rfl⟩ := h
  exact advance_append start b rest

theorem line_past (p : Position) (t : Text) : (p.past t).line = p.line + t.count '\n' := by
  induction t generalizing p with
  | nil => rfl
  | cons c t ih =>
    rw [past_cons, ih, after]
    by_cases lf : c = '\n'
    · subst lf
      simp only [beq_self_eq_true, if_true, List.count_cons_self]
      omega
    · simp [lf]

/-- Columns depend on the column in front only. -/
theorem column_past {p q : Position} (h : p.column = q.column) (t : Text) :
    (p.past t).column = (q.past t).column := by
  induction t generalizing p q with
  | nil => exact h
  | cons c t ih =>
    refine ih ?_
    rw [after, after]
    split
    · rfl
    · simp [h]

/-- The line feeds of a text count the lines, and its end alone decides the column. -/
theorem past_eq {p q : Position} (h : p.column = q.column) (t : Text) :
    p.past t = ⟨p.line + t.count '\n', (q.past t).column⟩ := by
  rw [← line_past, ← column_past h]

/-- Without line feeds a text moves the column by its length. -/
theorem past_of_lf_not_mem {t : Text} (lf : '\n' ∉ t) (p : Position) :
    p.past t = ⟨p.line, p.column + t.length⟩ := by
  induction t generalizing p with
  | nil => rfl
  | cons c t ih =>
    have notLf : (c == '\n') = false := beq_eq_false_iff_ne.2 fun eq => lf (eq ▸ List.mem_cons_self)
    rw [past_cons, ih fun mem => lf (List.mem_cons_of_mem c mem), after, notLf, List.length_cons,
      Nat.add_comm t.length, ← Nat.add_assoc]
    rfl

theorem past_lf (p : Position) : p.past ['\n'] = ⟨p.line + 1, 1⟩ := rfl

/-- Both line ends lead to the beginning of the next line. -/
theorem past_crlf (p : Position) : p.past ['\r', '\n'] = ⟨p.line + 1, 1⟩ := rfl

/-- The column counts the characters behind the last line feed. -/
theorem column_past_start (t : Text) :
    (start.past t).column = 1 + (t.rtakeWhile (· != '\n')).length := by
  induction t using List.reverseRecOn with
  | nil => rfl
  | append_singleton t c ih =>
    rw [past_append, past_cons, past_nil, after, List.rtakeWhile_concat]
    by_cases lf : c = '\n'
    · subst lf
      rfl
    · rw [if_neg (by simpa using lf), if_pos (by simpa using lf), ih, List.length_append]
      rfl

/-! ## The order of positions -/

/-- The position is on an earlier line, or earlier on the same one. -/
def Before (p q : Position) : Prop := p.line < q.line ∨ p.line = q.line ∧ p.column < q.column

variable {p q r : Position} {t : Text} {m n : Nat}

theorem Before.trans (h : Before p q) (h' : Before q r) : Before p r := by
  unfold Before at *
  omega

theorem Before.asymm (h : Before p q) : ¬Before q p := by
  unfold Before at *
  omega

theorem not_before_self (p : Position) : ¬Before p p := fun h => h.asymm h

theorem before_after (p : Position) (c : Char) : Before p (p.after c) := by
  rw [after, Before]
  split
  · exact .inl (Nat.lt_succ_self _)
  · exact .inr ⟨rfl, Nat.lt_succ_self _⟩

/-- Every character leads further on. -/
theorem before_past (p : Position) (ne : t ≠ []) : Before p (p.past t) := by
  induction t generalizing p with
  | nil => exact absurd rfl ne
  | cons c t ih =>
    rw [past_cons]
    by_cases last : t = []
    · rw [last]
      exact before_after p c
    · exact (before_after p c).trans (ih _ last)

end Position

/-! ## Offsets -/

/-- The offset lies between two characters of the text, or at one of its ends. -/
def Text.IsBoundary (t : Text) (n : Nat) : Prop := ∃ b, b <+: t ∧ n = byteLength b

namespace Position

variable {t : Text} {m n : Nat}

/-- Offsets between characters come in the order of their positions. -/
theorem before_of_lt (hm : t.IsBoundary m) (hn : t.IsBoundary n) (h : m < n) :
    Before (ofOffset t m) (ofOffset t n) := by
  obtain ⟨b, hb, rfl⟩ := hm
  obtain ⟨c, hc, rfl⟩ := hn
  have front : b <+: c := by
    rcases List.prefix_or_prefix_of_prefix hb hc with front | front
    · exact front
    · have := byteLength_le_of_isPrefix front
      omega
  obtain ⟨d, rfl⟩ := front
  have ne : d ≠ [] := by
    rintro rfl
    simp at h
  rw [ofOffset_of_isPrefix hb, ofOffset_of_isPrefix hc, past_append]
  exact before_past _ ne

theorem before_iff_lt (hm : t.IsBoundary m) (hn : t.IsBoundary n) :
    Before (ofOffset t m) (ofOffset t n) ↔ m < n := by
  refine ⟨fun h => ?_, before_of_lt hm hn⟩
  rcases Nat.lt_trichotomy m n with lt | rfl | gt
  · exact lt
  · exact absurd h (not_before_self _)
  · exact absurd (before_of_lt hn hm gt) h.asymm

/-- An offset inside a character has the position behind it. -/
theorem ofOffset_inside {front back : Text} {c : Char} (after : byteLength front < n)
    (before : n < byteLength (front ++ [c])) :
    ofOffset (front ++ c :: back) n =
      ofOffset (front ++ c :: back) (byteLength (front ++ [c])) := by
  obtain ⟨k, rfl⟩ := Nat.exists_eq_add_of_lt after
  have inside : k + 1 < c.utf8Size := by simpa [Nat.add_assoc] using before
  have behind : front ++ [c] <+: front ++ c :: back := ⟨back, by simp⟩
  rw [ofOffset_of_isPrefix behind, past_append, ofOffset, Nat.add_assoc, advance_add, advance,
    if_neg (Nat.succ_ne_zero k), Nat.sub_eq_zero_of_le inside.le, advance_zero]
  rfl

/-- An offset past the end has the position of the end. -/
theorem ofOffset_beyond (h : byteLength t ≤ n) : ofOffset t n = ofOffset t (byteLength t) := by
  obtain ⟨k, rfl⟩ := Nat.exists_eq_add_of_le h
  have whole := advance_add start t [] k
  rw [List.append_nil] at whole
  rw [ofOffset, whole, advance, ofOffset_of_isPrefix (List.prefix_refl t)]

/-- The function tells where in the text the offsets are. -/
structure Faithful (t : Text) (position : Nat → Position) : Prop where
  /-- Between characters the line counts the line feeds in front, and the column the characters
  behind the last of them. -/
  counts : ∀ front back, t = front ++ back →
    position (byteLength front) =
      ⟨1 + front.count '\n', 1 + (front.rtakeWhile (· != '\n')).length⟩
  injective : ∀ m n, t.IsBoundary m → t.IsBoundary n → position m = position n → m = n
  increasing : ∀ m n, t.IsBoundary m → t.IsBoundary n → (Before (position m) (position n) ↔ m < n)
  inside : ∀ front c back n, t = front ++ c :: back → byteLength front < n →
    n < byteLength (front ++ [c]) → position n = position (byteLength (front ++ [c]))
  beyond : ∀ n, byteLength t ≤ n → position n = position (byteLength t)

end Position

/-- **Positions.** The location of a range tells where it starts, wherever it stops. -/
theorem Location.faithful (t : Text) (stop : Nat → Nat) :
    Position.Faithful t fun n => (Location.ofRange t n (stop n)).position where
  counts := by
    rintro front back rfl
    show Position.ofOffset (front ++ back) (byteLength front) = _
    rw [Position.ofOffset_of_isPrefix (List.prefix_append front back),
      ← Position.column_past_start front]
    exact congrArg (Position.mk · _) (Position.line_past _ _)
  injective m n hm hn same := by
    have level : ∀ {m n}, t.IsBoundary m → t.IsBoundary n →
        Position.ofOffset t m = Position.ofOffset t n → n ≤ m := by
      intro m n hm hn same
      refine Nat.not_lt.1 fun lt => Position.not_before_self (Position.ofOffset t n) ?_
      have before := Position.before_of_lt hm hn lt
      rwa [same] at before
    exact Nat.le_antisymm (level hn hm same.symm) (level hm hn same)
  increasing _ _ hm hn := Position.before_iff_lt hm hn
  inside := by
    rintro front c back n rfl after before
    exact Position.ofOffset_inside after before
  beyond _ h := Position.ofOffset_beyond h

end TierLint
