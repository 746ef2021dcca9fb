import TierLint.Inline.CodeSpan
import TierLint.Proofs.Text.Run

/-!
# Code spans in longer texts

The closing run is looked for from run to run (`CodeSpan.closing?_run`), so a code span is told from
its own text, as long as no further backtick stands behind it. Whatever else stands there, the same
code span is read (`CodeSpan.read?_source_append`), and more text may give runs that open nothing a
closing run, but takes it from none (`CodeSpan.read?_eq_none_of_append`).
-/

set_option autoImplicit false

namespace TierLint.CodeSpan

open List Text

variable {n : Nat} {t u v content after : Text} {s : CodeSpan}

theorem closing?_nil (n : Nat) : closing? n [] = none := by rw [closing?]

/-- A whole run closes, or belongs to the content. -/
theorem closing?_run (hu : startsBy (· == '`') u = false) (n k : Nat) :
    closing? n (replicate (k + 1) '`' ++ u) =
      if k + 1 = n then some ([], u) else prependTo (replicate (k + 1) '`') (closing? n u) := by
  rw [replicate_succ, cons_append, closing?, if_pos rfl, runLength_replicate_append hu,
    afterRun_replicate_append hu, Nat.add_comm 1 k]
  rfl

theorem closing?_cons_of_ne {c : Char} (hc : c ≠ '`') (n : Nat) (t : Text) :
    closing? n (c :: t) = prependTo [c] (closing? n t) := by
  rw [closing?, if_neg hc]

/-- The closing run is a whole one. -/
theorem startsBy_of_closing? (h : closing? n t = some (content, after)) :
    startsBy (· == '`') after = false := by
  fun_induction closing? n t generalizing content after with
  | case1 => cases h
  | case2 rest run =>
    cases h
    exact startsBy_afterRun '`' rest
  | case3 rest run =>
    rename_i _ ih
    obtain ⟨inner, hi, -⟩ := prependTo_eq_some.1 h
    exact ih hi
  | case4 c rest _ ih =>
    obtain ⟨inner, hi, -⟩ := prependTo_eq_some.1 h
    exact ih hi

/-- The content begins as the text does, unless it is empty. -/
theorem startsBy_content (ht : startsBy (· == '`') t = false)
    (h : closing? n t = some (content, after)) (v : Text) :
    startsBy (· == '`') (content ++ v) = false := by
  cases t with
  | nil =>
    rw [closing?_nil] at h
    cases h
  | cons c t =>
    rw [closing?_cons_of_ne (ne_of_beq_false ht)] at h
    obtain ⟨inner, -, rfl⟩ := prependTo_eq_some.1 h
    exact ht

/-- The closing run is found again with any other text behind it. -/
theorem closing?_append (h : closing? n t = some (content, after))
    (hu : startsBy (· == '`') u = false) :
    closing? n (content ++ replicate n '`' ++ u) = some (content, u) := by
  fun_induction closing? n t generalizing content after with
  | case1 => cases h
  | case2 rest run =>
    rename_i found
    cases h
    obtain ⟨k, hk⟩ : ∃ k, n = k + 1 := ⟨runLength '`' rest, by omega⟩
    rw [hk, nil_append, closing?_run hu, if_pos rfl]
  | case3 rest run =>
    rename_i other ih
    obtain ⟨inner, hi, rfl⟩ := prependTo_eq_some.1 h
    obtain ⟨k, hk⟩ : ∃ k, run = k + 1 := ⟨runLength '`' rest, Nat.add_comm ..⟩
    -- the run is as long as before, since the rest of the content begins as the text behind it did
    have boundary := startsBy_content (startsBy_afterRun '`' rest) hi (replicate n '`' ++ u)
    rw [hk] at other
    rw [hk, append_assoc, append_assoc, closing?_run boundary, if_neg other, ← append_assoc, ih hi]
    rfl
  | case4 c rest other ih =>
    obtain ⟨inner, hi, rfl⟩ := prependTo_eq_some.1 h
    rw [append_assoc, append_assoc, singleton_append, closing?_cons_of_ne other, ← append_assoc,
      ih hi]
    rfl

/-- A whole run opens a code span if another run of its length follows. -/
theorem read?_run (hu : startsBy (· == '`') u = false) (k : Nat) :
    read? (replicate (k + 1) '`' ++ u) =
      (closing? (k + 1) u).map fun (content, after) => (⟨k + 1, content⟩, after) := by
  rw [replicate_succ, cons_append, read?, runLength_replicate_append hu,
    afterRun_replicate_append hu, Nat.add_comm 1 k]

theorem cases_of_read? (h : read? t = some (s, after)) :
    ∃ k u, t = replicate (k + 1) '`' ++ u ∧ startsBy (· == '`') u = false ∧ s.ticks = k + 1 ∧
      closing? (k + 1) u = some (s.content, after) := by
  unfold read? at h
  split at h
  · rename_i rest
    obtain ⟨⟨content, behind⟩, found, eq⟩ := Option.map_eq_some_iff.1 h
    cases eq
    refine ⟨runLength '`' rest, afterRun '`' rest, ?_, startsBy_afterRun '`' rest,
      Nat.add_comm .., by rw [Nat.add_comm]; exact found⟩
    rw [cons_eq_replicate_append_afterRun, Nat.add_comm]
  · cases h

theorem exists_cons_of_read? (h : read? t = some (s, after)) : ∃ rest, t = '`' :: rest := by
  obtain ⟨k, u, rfl, -⟩ := cases_of_read? h
  exact ⟨replicate k '`' ++ u, rfl⟩

theorem startsBy_of_read? (h : read? t = some (s, after)) : startsBy (· == '`') after = false := by
  obtain ⟨k, u, -, -, -, found⟩ := cases_of_read? h
  exact startsBy_of_closing? found

/-- A code span ends with a backtick. -/
theorem getLast?_source (h : read? t = some (s, after)) : s.source.getLast? = some '`' := by
  obtain ⟨k, -, -, -, ticks, -⟩ := cases_of_read? h
  rw [source, marker, ticks, Nat.add_comm, getLast?_append, getLast?_run]
  rfl

/-- A code span is read again with any other text behind it. -/
theorem read?_source_append (h : read? t = some (s, after)) (hv : startsBy (· == '`') v = false) :
    read? (s.source ++ v) = some (s, v) := by
  obtain ⟨k, u, -, whole, ticks, found⟩ := cases_of_read? h
  have boundary := startsBy_content whole found (replicate (k + 1) '`' ++ v)
  have again := closing?_append found hv
  rw [append_assoc] at again
  rw [source, marker, ticks, append_assoc, append_assoc, read?_run boundary, again, Option.map_some,
    ← ticks]

/-- What opens no code span in a longer text opens none. -/
theorem read?_eq_none_of_append (hv : startsBy (· == '`') v = false) (h : read? (t ++ v) = none) :
    read? t = none := by
  refine Option.eq_none_iff_forall_ne_some.2 fun (s, after) found => ?_
  rw [eq_of_read? found, append_assoc,
    read?_source_append found (startsBy_append (startsBy_of_read? found) hv)] at h
  cases h

end TierLint.CodeSpan
