import TierLint.Text

/-!
# Code spans

A run of backticks opens a code span that ends at the next run of the same
length. Runs are maximal: a longer or shorter run inside is content. Without
such a run nothing opens.
-/

set_option autoImplicit false

namespace TierLint

open Text

/-- A code span: the length of the backtick runs around it, and what they enclose. -/
structure CodeSpan where
  ticks : Nat
  content : Text
  deriving DecidableEq

namespace CodeSpan

/-- One of the two runs of backticks. -/
def marker (s : CodeSpan) : Text := List.replicate s.ticks '`'

/-- The span as it is written. -/
def source (s : CodeSpan) : Text := s.marker ++ s.content ++ s.marker

/-- The text up to the first maximal run of exactly `n` backticks, and the text
behind that run. -/
def closing? (n : Nat) (t : Text) : Option (Text × Text) :=
  match t with
  | [] => none
  | c :: rest =>
    if c = '`' then
      let run := 1 + runLength '`' rest
      if run = n then some ([], afterRun '`' rest)
      else prependTo (List.replicate run '`') (closing? n (afterRun '`' rest))
    else
      prependTo [c] (closing? n rest)
termination_by t.length
decreasing_by
  · exact Nat.lt_succ_of_le (afterRun_length_le ..)
  · simp

/-- Reads a code span. -/
def read? : Text → Option (CodeSpan × Text)
  | '`' :: rest =>
    let ticks := 1 + runLength '`' rest
    (closing? ticks (afterRun '`' rest)).map fun (content, after) => (⟨ticks, content⟩, after)
  | _ => none

theorem eq_of_closing? {n : Nat} {t content after : Text}
    (h : closing? n t = some (content, after)) :
    t = content ++ List.replicate n '`' ++ after := by
  fun_induction closing? n t generalizing content after with
  | case1 => simp at h
  | case2 rest run =>
    rename_i hn
    subst hn
    obtain ⟨rfl, rfl⟩ : [] = content ∧ afterRun '`' rest = after := by simpa using h
    simpa [run] using cons_eq_replicate_append_afterRun '`' rest
  | case3 rest run =>
    rename_i _ ih
    obtain ⟨inner, hi, rfl⟩ := prependTo_eq_some.1 h
    rw [cons_eq_replicate_append_afterRun '`' rest, ih hi]
    simp [run]
  | case4 c rest _ ih =>
    obtain ⟨inner, hi, rfl⟩ := prependTo_eq_some.1 h
    simp [ih hi]

theorem eq_of_read? {t rest : Text} {s : CodeSpan} (h : read? t = some (s, rest)) :
    t = s.source ++ rest := by
  unfold read? at h
  split at h
  · rename_i tail
    obtain ⟨content, hc, rfl⟩ := by simpa [Option.map_eq_some_iff] using h
    rw [cons_eq_replicate_append_afterRun '`' tail, eq_of_closing? hc]
    simp [source, marker]
  · simp at h

theorem ticks_pos_of_read? {t rest : Text} {s : CodeSpan} (h : read? t = some (s, rest)) :
    0 < s.ticks := by
  unfold read? at h
  split at h
  · obtain ⟨content, -, rfl⟩ := by simpa [Option.map_eq_some_iff] using h
    exact Nat.lt_add_right _ Nat.one_pos
  · simp at h

/-- What follows a code span is shorter than the text it was read from. -/
theorem length_lt_of_read? {t rest : Text} {s : CodeSpan} (h : read? t = some (s, rest)) :
    rest.length < t.length := by
  have := ticks_pos_of_read? h
  simp [eq_of_read? h, source, marker]
  omega

end CodeSpan

end TierLint
