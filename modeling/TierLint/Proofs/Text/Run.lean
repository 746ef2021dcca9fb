import Mathlib.Data.List.SplitBy
import Mathlib.Data.List.TakeWhile
import TierLint.Text

/-!
# Runs of a character

A run is taken as a whole: `runLength` counts the characters at the start of a text, `afterRun` is
what follows them, and it does not begin with another one (`startsBy_afterRun`). A run in front of
such a text is all that is counted (`runLength_replicate_append`). A text that is cut into runs is
cut behind the first run first (`splitBy_cons`).
-/

set_option autoImplicit false

namespace TierLint.Text

open List

theorem length_takeWhile_cons_self (c : Char) (t : Text) :
    ((c :: t).takeWhile (· == c)).length = 1 + runLength c t := by
  rw [takeWhile_cons_of_pos (by simp), length_cons, runLength, Nat.add_comm]

theorem runLength_cons_self (c : Char) (t : Text) : runLength c (c :: t) = 1 + runLength c t :=
  length_takeWhile_cons_self c t

theorem runLength_cons_of_ne {c d : Char} (h : d ≠ c) (t : Text) : runLength c (d :: t) = 0 := by
  rw [runLength, takeWhile_cons_of_neg (by simpa using h)]
  rfl

theorem afterRun_cons_self (c : Char) (t : Text) : afterRun c (c :: t) = afterRun c t :=
  dropWhile_cons_of_pos (beq_self_eq_true c)

theorem takeWhile_eq_replicate (c : Char) (t : Text) :
    t.takeWhile (· == c) = replicate (runLength c t) c := by
  refine eq_replicate_iff.2 ⟨rfl, fun d hd => ?_⟩
  exact eq_of_beq (mem_takeWhile_imp (p := (· == c)) hd)

theorem drop_runLength (c : Char) (t : Text) : t.drop (runLength c t) = afterRun c t := by
  calc t.drop (runLength c t)
      = (replicate (runLength c t) c ++ afterRun c t).drop (runLength c t) := by
        rw [replicate_runLength_append_afterRun]
    _ = afterRun c t := drop_left' length_replicate

theorem take_runLength (c : Char) (t : Text) :
    t.take (runLength c t) = replicate (runLength c t) c := by
  calc t.take (runLength c t)
      = (replicate (runLength c t) c ++ afterRun c t).take (runLength c t) := by
        rw [replicate_runLength_append_afterRun]
    _ = replicate (runLength c t) c := take_left' length_replicate

/-- What follows a run does not go on with it. -/
theorem startsBy_afterRun (c : Char) (t : Text) : startsBy (· == c) (afterRun c t) = false := by
  have ends := head?_dropWhile_not (· == c) t
  rw [startsBy, afterRun]
  cases first : (t.dropWhile (· == c)).head? with
  | none => rfl
  | some d =>
    rw [first] at ends
    exact ends

/-- A run ends with its character. -/
theorem getLast?_run (n : Nat) (c : Char) : (replicate (1 + n) c).getLast? = some c := by
  rw [Nat.add_comm, replicate_succ', getLast?_concat]

theorem startsBy_append {p : Char → Bool} {u v : Text} (hu : startsBy p u = false)
    (hv : startsBy p v = false) : startsBy p (u ++ v) = false := by
  cases u with
  | nil => exact hv
  | cons c u => exact hu

theorem startsBy_of_append {p : Char → Bool} {u v : Text} (h : startsBy p (u ++ v) = false) :
    startsBy p u = false := by
  cases u with
  | nil => rfl
  | cons c u => exact h

/-- Nothing is taken of a text that begins with something else. -/
theorem takeWhile_of_startsBy {p : Char → Bool} {t : Text} (h : startsBy p t = false) :
    t.takeWhile p = [] := by
  cases t with
  | nil => rfl
  | cons c t => exact takeWhile_cons_of_neg (Bool.eq_false_iff.1 h)

theorem dropWhile_of_startsBy {p : Char → Bool} {t : Text} (h : startsBy p t = false) :
    t.dropWhile p = t := by
  cases t with
  | nil => rfl
  | cons c t => exact dropWhile_cons_of_neg (Bool.eq_false_iff.1 h)

/-- A text that is not empty begins as it does in front of any other one. -/
theorem startsBy_append_of_ne_nil {p : Char → Bool} {u : Text} (ne : u ≠ []) (back : Text) :
    startsBy p (u ++ back) = startsBy p u := by
  cases u with
  | nil => exact absurd rfl ne
  | cons x u => rfl

/-- A text that is not empty ends as it does behind any other one. -/
theorem endsBy_append_of_ne_nil {p : Char → Bool} {u : Text} (front : Text) (ne : u ≠ []) :
    endsBy p (front ++ u) = endsBy p u := by
  obtain ⟨v, x, rfl⟩ := (eq_nil_or_concat' u).resolve_left ne
  rw [endsBy, endsBy, ← append_assoc, getLast?_concat, getLast?_concat]

variable {c : Char} {u : Text}

theorem runLength_replicate_append (h : startsBy (· == c) u = false) (n : Nat) :
    runLength c (replicate n c ++ u) = n := by
  induction n with
  | zero =>
    cases u with
    | nil => rfl
    | cons d u => exact runLength_cons_of_ne (ne_of_beq_false h) u
  | succ n ih => rw [replicate_succ, cons_append, runLength_cons_self, ih, Nat.add_comm]

theorem afterRun_replicate_append (h : startsBy (· == c) u = false) (n : Nat) :
    afterRun c (replicate n c ++ u) = u := by
  rw [← drop_runLength, runLength_replicate_append h]
  exact drop_left' length_replicate

/-- The first run ends in front of the first element with another value of `f`. -/
theorem splitBy_cons {α : Type} (f : α → Bool) (a : α) (as : List α) :
    (a :: as).splitBy (fun x y => f x == f y) =
      (a :: as).takeWhile (fun x => f x == f a) ::
        ((a :: as).dropWhile fun x => f x == f a).splitBy (fun x y => f x == f y) := by
  have same : ∀ x ∈ (a :: as).takeWhile (fun x => f x == f a), f x = f a := by
    intro x hx
    exact eq_of_beq (mem_takeWhile_imp (p := fun x => f x == f a) hx)
  -- The first run is not empty, holds together, and differs from what is behind it.
  have nonempty : (a :: as).takeWhile (fun x => f x == f a) ≠ [] := by
    rw [takeWhile_cons_of_pos (p := fun x => f x == f a) (beq_self_eq_true _)]
    exact cons_ne_nil _ _
  have chain : ((a :: as).takeWhile fun x => f x == f a).IsChain fun x y => f x == f y := by
    refine (pairwise_of_forall_mem_list fun x hx y hy => ?_).isChain
    rw [same x hx, same y hy, beq_self_eq_true]
  have apart : ∀ x ∈ ((a :: as).takeWhile fun x => f x == f a).getLast?,
      ∀ y ∈ ((a :: as).dropWhile fun x => f x == f a).head?, (f x == f y) = false := by
    intro x hx y hy
    have other := head?_dropWhile_not (fun x => f x == f a) (a :: as)
    rw [Option.mem_def.1 hy] at other
    rw [same x (mem_of_getLast? hx)]
    rw [Bool.beq_comm]
    exact Bool.eq_false_iff.2 (by simpa using other)
  calc (a :: as).splitBy (fun x y => f x == f y)
      = ((a :: as).takeWhile (fun x => f x == f a) ++
          (a :: as).dropWhile (fun x => f x == f a)).splitBy (fun x y => f x == f y) := by
        rw [takeWhile_append_dropWhile]
    _ = _ := by
        rw [splitBy_append apart, splitBy_of_isChain nonempty chain]
        rfl

end TierLint.Text
