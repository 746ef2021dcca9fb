import Mathlib.Data.List.Basic

/-!
# Lists that go in step

Two lists go in step if they have one length and their members are related place by place. The
relation may know of each place whether it is the last one (`InStep`): two texts may end in
different ways and agree up to there.

What a function takes from the front of such lists by looking at the members goes in step again, and
so does what it leaves (`InStep.takeWhile`, `InStep.dropWhile`, `InStep.take`, `InStep.drop`).
-/

set_option autoImplicit false

namespace TierLint

/-- Members are related place by place; `last` tells that the lists end what they are part of, so
that their last place is the last of all. -/
inductive InStep {α β : Type} (R : Bool → α → β → Prop) (last : Bool) : List α → List β → Prop
  | nil : InStep R last [] []
  | cons {x : α} {y : β} {xs : List α} {ys : List β} :
      R (last && xs.isEmpty) x y → InStep R last xs ys → InStep R last (x :: xs) (y :: ys)

namespace InStep

variable {α β γ δ : Type} {R : Bool → α → β → Prop} {S : Bool → γ → δ → Prop}
variable {last : Bool} {xs : List α} {ys : List β}

theorem isEmpty_eq (h : InStep R last xs ys) : xs.isEmpty = ys.isEmpty := by
  cases h <;> rfl

theorem singleton {x : α} {y : β} (h : R last x y) : InStep R last [x] [y] :=
  .cons (by simpa using h) .nil

/-- A relation that holds of an inner place holds of a last one. -/
theorem weaken (mono : ∀ x y, R false x y → R last x y) (h : InStep R false xs ys) :
    InStep R last xs ys := by
  induction h with
  | nil => exact .nil
  | @cons x y xs ys first _ ih =>
    refine .cons ?_ ih
    cases last with
    | false => exact first
    | true =>
      cases xs with
      | nil => exact mono x y first
      | cons => exact first

/-- A place in front is the last of all if it is the last one there and nothing follows. -/
theorem isEmpty_of_append {as bs cs : List α} (whole : as ++ bs = cs) :
    (bs.isEmpty && as.isEmpty) = cs.isEmpty := by
  subst whole
  cases as <;> cases bs <;> rfl

theorem map {f : α → γ} {g : β → δ} (step : ∀ b x y, R b x y → S b (f x) (g y))
    (h : InStep R last xs ys) : InStep S last (xs.map f) (ys.map g) := by
  induction h with
  | nil => exact .nil
  | cons first _ ih => exact .cons (by simpa using step _ _ _ first) ih

/-! ## The front of a list -/

theorem take (h : InStep R last xs ys) (n : Nat) :
    InStep R (last && (xs.drop n).isEmpty) (xs.take n) (ys.take n) := by
  induction h generalizing n with
  | nil => simpa using .nil
  | @cons x y xs ys first others ih =>
    cases n with
    | zero => exact .nil
    | succ n =>
      refine .cons ?_ (ih n)
      rwa [List.drop_succ_cons, Bool.and_assoc, isEmpty_of_append (List.take_append_drop n xs)]

theorem drop (h : InStep R last xs ys) (n : Nat) : InStep R last (xs.drop n) (ys.drop n) := by
  induction h generalizing n with
  | nil => simpa using .nil
  | cons first others ih =>
    cases n with
    | zero => exact .cons first others
    | succ n => exact ih n

theorem cons_take {x : α} {y : β} (h : InStep R last (x :: xs) (y :: ys)) (n : Nat) :
    InStep R (last && (xs.drop n).isEmpty) (x :: xs.take n) (y :: ys.take n) := by
  simpa using h.take (n + 1)

section Agreement

variable {p : α → Bool} {q : β → Bool} (agree : ∀ b x y, R b x y → p x = q y)

include agree

theorem dropWhile (h : InStep R last xs ys) : InStep R last (xs.dropWhile p) (ys.dropWhile q) := by
  induction h with
  | nil => exact .nil
  | cons first others ih =>
    rw [List.dropWhile_cons, List.dropWhile_cons, agree _ _ _ first]
    split
    · exact ih
    · exact .cons first others

theorem takeWhile (h : InStep R last xs ys) :
    InStep R (last && (xs.dropWhile p).isEmpty) (xs.takeWhile p) (ys.takeWhile q) := by
  induction h with
  | nil => exact .nil
  | @cons x y xs ys first _ ih =>
    rw [List.takeWhile_cons, List.takeWhile_cons, List.dropWhile_cons, agree _ _ _ first]
    split
    · refine .cons ?_ ih
      rwa [Bool.and_assoc, isEmpty_of_append List.takeWhile_append_dropWhile]
    · exact .nil

theorem cons_takeWhile {x : α} {y : β} (h : InStep R last (x :: xs) (y :: ys)) :
    InStep R (last && (xs.dropWhile p).isEmpty) (x :: xs.takeWhile p) (y :: ys.takeWhile q) := by
  cases h with
  | cons first others =>
    refine .cons ?_ (others.takeWhile agree)
    rwa [Bool.and_assoc, isEmpty_of_append List.takeWhile_append_dropWhile]

end Agreement

end InStep

end TierLint
