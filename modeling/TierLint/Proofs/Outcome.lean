import Mathlib.Data.List.Forall2

/-!
# Outcomes of steps that can fail

A step is followed by another, or a step is made for each of some things. If all of it succeeds,
each step did (`exists_of_map_eq_ok`, `bind_eq_ok_iff`, `exists_of_mapM_ok`); if each step
succeeds, so does all of it (`exists_mapM_eq_ok`, `mapM_eq_ok_map`). If it fails, it does so as the
first step that fails (`failure?_bind`, `failure?_mapM`).
-/

set_option autoImplicit false

namespace TierLint

variable {α β ε : Type}

theorem exists_of_map_eq_ok {f : α → β} {x : Except ε α} {b : β} (h : x.map f = .ok b) :
    ∃ a, x = .ok a ∧ f a = b := by
  cases x with
  | error e => cases h
  | ok a =>
    cases h
    exact ⟨a, rfl, rfl⟩

/-- A step whose result was used further succeeded. -/
theorem exists_ok_of_map {f : α → β} {x : Except ε α} (h : ∃ b, x.map f = .ok b) :
    ∃ a, x = .ok a := by
  obtain ⟨b, h⟩ := h
  obtain ⟨a, ha, -⟩ := exists_of_map_eq_ok h
  exact ⟨a, ha⟩

/-- What follows a step can take over what is done with its result. -/
theorem bind_map_eq {γ : Type} {f : α → β} {g : β → Except ε γ} (x : Except ε α) :
    (x.map f).bind g = x.bind fun a => g (f a) := by
  cases x <;> rfl

theorem exists_of_isOk {x : Except ε α} (h : x.isOk = true) : ∃ a, x = .ok a := by
  cases x with
  | error e => cases h
  | ok a => exact ⟨a, rfl⟩

theorem eq_ok_of_toOption {x : Except ε α} {a : α} (h : x.toOption = some a) : x = .ok a := by
  cases x with
  | error e => cases h
  | ok b =>
    cases h
    rfl

theorem exists_of_bind_eq_ok {f : α → Except ε β} {x : Except ε α} {b : β}
    (h : (x >>= f) = .ok b) : ∃ a, x = .ok a ∧ f a = .ok b := by
  cases x with
  | error e => cases h
  | ok a => exact ⟨a, rfl, h⟩

theorem bind_eq_ok_iff {f : α → Except ε β} {x : Except ε α} {b : β} :
    (x >>= f) = .ok b ↔ ∃ a, x = .ok a ∧ f a = .ok b := by
  refine ⟨exists_of_bind_eq_ok, ?_⟩
  rintro ⟨a, rfl, h⟩
  exact h

/-- A sequence of results that succeeds as a whole succeeded at each place. -/
theorem forall₂_of_mapM_ok {f : α → Except ε β} {xs : List α} {ys : List β}
    (h : xs.mapM f = .ok ys) : List.Forall₂ (fun x y => f x = .ok y) xs ys := by
  induction xs generalizing ys with
  | nil =>
    rw [List.mapM_nil] at h
    cases h
    exact .nil
  | cons x xs ih =>
    rw [List.mapM_cons] at h
    obtain ⟨y, hy, h⟩ := exists_of_bind_eq_ok h
    obtain ⟨ys', hys, h⟩ := exists_of_bind_eq_ok h
    cases h
    exact .cons hy (ih hys)

/-- A sequence of steps has the results that its steps have. -/
theorem mapM_eq_ok_iff {f : α → Except ε β} {xs : List α} {ys : List β} :
    xs.mapM f = .ok ys ↔ List.Forall₂ (fun x y => f x = .ok y) xs ys := by
  refine ⟨forall₂_of_mapM_ok, fun each => ?_⟩
  induction each with
  | nil => rfl
  | cons first _ ih =>
    rw [List.mapM_cons, first, ih]
    rfl

/-- Each step of a sequence that succeeds did. -/
theorem exists_of_mapM_ok {f : α → Except ε β} {xs : List α} {ys : List β}
    (h : xs.mapM f = .ok ys) : ∀ x ∈ xs, ∃ y, f x = .ok y := by
  have each := forall₂_of_mapM_ok h
  clear h
  induction each with
  | nil => simp
  | cons hy _ ih =>
    intro x hx
    rcases List.mem_cons.1 hx with rfl | later
    · exact ⟨_, hy⟩
    · exact ih x later

/-- Two stretches of steps succeed together if both succeed. -/
theorem mapM_append_eq_ok_iff {f : α → Except ε β} {xs ys : List α} {zs : List β} :
    (xs ++ ys).mapM f = .ok zs ↔
      ∃ as bs, xs.mapM f = .ok as ∧ ys.mapM f = .ok bs ∧ zs = as ++ bs := by
  rw [List.mapM_append, bind_eq_ok_iff]
  refine exists_congr fun as => ?_
  rw [bind_eq_ok_iff, ← exists_and_left]
  refine exists_congr fun bs => and_congr_right fun _ => and_congr_right fun _ => ?_
  exact ⟨fun h => (by cases h; rfl), fun h => h ▸ rfl⟩

/-- Steps that all succeed succeed in sequence. -/
theorem exists_mapM_eq_ok {f : α → Except ε β} {xs : List α} (h : ∀ x ∈ xs, ∃ y, f x = .ok y) :
    ∃ ys, xs.mapM f = .ok ys := by
  induction xs with
  | nil => exact ⟨[], rfl⟩
  | cons x xs ih =>
    obtain ⟨y, hy⟩ := h x List.mem_cons_self
    obtain ⟨ys, hys⟩ := ih fun z hz => h z (List.mem_cons_of_mem x hz)
    refine ⟨y :: ys, ?_⟩
    rw [List.mapM_cons, hy, hys]
    rfl

/-- Steps whose results are known succeed in sequence with these results. -/
theorem mapM_eq_ok_map {f : α → Except ε β} {g : α → β} {xs : List α}
    (h : ∀ x ∈ xs, f x = .ok (g x)) : xs.mapM f = .ok (xs.map g) := by
  induction xs with
  | nil => rfl
  | cons x xs ih =>
    rw [List.mapM_cons, h x List.mem_cons_self, ih fun y hy => h y (List.mem_cons_of_mem x hy)]
    rfl

/-! ## The first failure -/

/-- How a step failed, if it did. -/
def failure? : Except ε α → Option ε
  | .error e => some e
  | .ok _ => none

theorem failure?_eq_some_iff {x : Except ε α} {e : ε} : failure? x = some e ↔ x = .error e := by
  cases x with
  | error e' =>
    constructor
    · rintro ⟨⟩
      rfl
    · rintro ⟨⟩
      rfl
  | ok a => exact ⟨nofun, nofun⟩

theorem failure?_eq_none_iff {x : Except ε α} : failure? x = none ↔ ∃ a, x = .ok a := by
  cases x with
  | error e => exact ⟨nofun, nofun⟩
  | ok a => exact ⟨fun _ => ⟨a, rfl⟩, fun _ => rfl⟩

/-- Behind a step that succeeds, the step after it decides. -/
theorem failure?_bind {x : Except ε α} {f : α → Except ε β} {later : Option ε}
    (h : ∀ a, failure? (f a) = later) : failure? (x >>= f) = (failure? x).or later := by
  cases x with
  | error e => rfl
  | ok a => exact h a

/-- A sequence of steps fails as the first one that fails. -/
theorem failure?_mapM (f : α → Except ε β) (xs : List α) :
    failure? (xs.mapM f) = xs.findSome? fun x => failure? (f x) := by
  induction xs with
  | nil => rfl
  | cons x xs ih =>
    have rest : ∀ y : β, failure? (do
        let ys ← xs.mapM f
        pure (y :: ys)) = failure? (xs.mapM f) := by
      intro y
      have last : ∀ ys, failure? (pure (y :: ys) : Except ε (List β)) = none := fun _ => rfl
      rw [failure?_bind last, Option.or_none]
    rw [List.mapM_cons, failure?_bind rest, ih, List.findSome?_cons]
    cases failure? (f x) with
    | none => rfl
    | some e => rfl

end TierLint
