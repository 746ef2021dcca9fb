import Mathlib.Algebra.GroupWithZero.Nat
import Mathlib.Data.List.Perm.Basic
import TierLint.CommandLine.Report

/-!
# Tallies

A tally that counts some keys (`Tally.Counts`) has an entry for each key that was met, with the
number of times that it was met, and the entries stand in the order of the keys. Meeting a key once
more keeps this (`Tally.Counts.add`).

There is only one tally for some keys, in whichever order they were met (`Tally.Counts.unique`), and
its numbers add up to the number of keys.
-/

set_option autoImplicit false

namespace TierLint

open List Std

instance : TransOrd Tier where
  eq_swap {a b} := by cases a <;> cases b <;> rfl
  isLE_trans {a b c} := by cases a <;> cases b <;> cases c <;> decide

instance : LawfulEqOrd Tier where
  compare_self {a} := by cases a <;> rfl
  eq_of_compare {a b} := by cases a <;> cases b <;> decide

namespace CommandLine.Tally

variable {α : Type} [Ord α] {m m' : Tally α} {key key' : α} {n : Nat}

/-- The entries stand in the order of their keys. -/
def Ordered (m : Tally α) : Prop := m.Pairwise fun a b => compare a.1 b.1 = .lt

theorem sum_add : ((m.add key).map Prod.snd).sum = (m.map Prod.snd).sum + 1 := by
  induction m with
  | nil => rfl
  | cons entry rest ih =>
    obtain ⟨key', n⟩ := entry
    rw [add]
    split
    · rw [map_cons, sum_cons, Nat.add_comm]
    · rw [map_cons, map_cons, sum_cons, sum_cons, Nat.add_right_comm]
    · rw [map_cons, map_cons, sum_cons, sum_cons, ih, Nat.add_assoc]

section Lawful

variable [LawfulEqOrd α]

theorem ne_of_compare {order : Ordering} (h : compare key key' = order) (ne : order ≠ .eq) :
    key ≠ key' := by
  rintro rfl
  exact ne (h.symm.trans ReflCmp.compare_self)

theorem Ordered.nodup (h : m.Ordered) : m.Nodup := by
  refine Pairwise.imp (fun {a b} before => ?_) h
  rintro rfl
  exact ne_of_compare before nofun rfl

theorem mem_add {e : α × Nat} (h : e ∈ m.add key) : (e.1 = key ∧ 0 < e.2) ∨ e ∈ m := by
  induction m with
  | nil =>
    rw [add, mem_singleton] at h
    exact .inl (h ▸ ⟨rfl, Nat.one_pos⟩)
  | cons entry rest ih =>
    obtain ⟨key', n⟩ := entry
    rw [add] at h
    split at h <;> rename_i place <;> rcases mem_cons.1 h with rfl | old
    · exact .inl ⟨rfl, Nat.one_pos⟩
    · exact .inr old
    · exact .inl ⟨(LawfulEqOrd.eq_of_compare place).symm, Nat.succ_pos n⟩
    · exact .inr (mem_cons_of_mem _ old)
    · exact .inr mem_cons_self
    · exact (ih old).imp_right (mem_cons_of_mem _)

variable [TransOrd α]

theorem Ordered.add (h : m.Ordered) (key : α) : (m.add key).Ordered := by
  induction m with
  | nil => exact pairwise_singleton _ _
  | cons entry rest ih =>
    obtain ⟨key', n⟩ := entry
    obtain ⟨first, ordered⟩ := pairwise_cons.1 h
    rw [Tally.add]
    split <;> rename_i place
    · refine pairwise_cons.2 ⟨fun e he => ?_, h⟩
      rcases mem_cons.1 he with rfl | later
      · exact place
      · exact TransCmp.lt_trans place (first e later)
    · exact pairwise_cons.2 ⟨first, ordered⟩
    · refine pairwise_cons.2 ⟨fun e he => ?_, ih ordered⟩
      rcases mem_add he with ⟨new, -⟩ | old
      · exact new ▸ OrientedCmp.gt_iff_lt.1 place
      · exact first e old

end Lawful

/-! ## Numbers -/

variable [BEq α] [LawfulBEq α] {xs ys : List α}

theorem lookup_of_mem [LawfulEqOrd α] (h : m.Ordered) (mem : (key, n) ∈ m) :
    m.lookup key = some n := by
  induction m with
  | nil => cases mem
  | cons entry rest ih =>
    obtain ⟨first, ordered⟩ := pairwise_cons.1 h
    rw [lookup_cons]
    rcases mem_cons.1 mem with rfl | later
    · rw [beq_self_eq_true]
    · have other := beq_eq_false_iff_ne.2 (ne_of_compare (first _ later) nofun).symm
      rw [other]
      exact ih ordered later

/-- Only the entry of the key changes, and it is one larger. -/
theorem lookup_add [LawfulEqOrd α] [TransOrd α] (h : m.Ordered) (key key' : α) :
    (m.add key).lookup key' =
      if key' == key then some ((m.lookup key).getD 0 + 1) else m.lookup key' := by
  induction m with
  | nil =>
    rw [add, lookup_cons]
    cases key' == key <;> rfl
  | cons entry rest ih =>
    obtain ⟨first, n⟩ := entry
    obtain ⟨before, ordered⟩ := pairwise_cons.1 h
    rw [add]
    split <;> rename_i place
    · -- the key comes before all others, so it was not there
      have none : lookup key ((first, n) :: rest) = none := by
        refine lookup_eq_none_iff.2 fun e he => bne_iff_ne.2 ?_
        rcases mem_cons.1 he with rfl | later
        · exact ne_of_compare place nofun
        · exact ne_of_compare (TransCmp.lt_trans place (before e later)) nofun
      rw [none, lookup_cons]
      cases key' == key <;> rfl
    · obtain rfl := LawfulEqOrd.eq_of_compare place
      rw [lookup_cons, lookup_cons, lookup_cons, beq_self_eq_true]
      cases key' == key <;> rfl
    · have other : (key == first) = false := beq_eq_false_iff_ne.2 (ne_of_compare place nofun)
      rw [lookup_cons, lookup_cons, lookup_cons, other, ih ordered]
      by_cases same : key' == key
      · rw [eq_of_beq same, other]
      · rw [if_neg same, if_neg same]

/-- The entries are the keys of a list, in their order, each with the number of times that it
stands in the list. -/
structure Counts (m : Tally α) (xs : List α) : Prop where
  ordered : m.Ordered
  positive : ∀ e ∈ m, 0 < e.2
  lookup : ∀ key, (m.lookup key).getD 0 = xs.count key
  sum : (m.map Prod.snd).sum = xs.length

namespace Counts

omit [LawfulBEq α] in
theorem nil : Counts [] ([] : List α) where
  ordered := Pairwise.nil
  positive _ h := absurd h not_mem_nil
  lookup _ := rfl
  sum := rfl

omit [LawfulBEq α] in
theorem perm (h : m.Counts xs) (p : xs.Perm ys) : m.Counts ys where
  ordered := h.ordered
  positive := h.positive
  lookup key := (h.lookup key).trans (p.count_eq key)
  sum := h.sum.trans p.length_eq

variable [LawfulEqOrd α]

theorem mem_iff (h : m.Counts xs) : (key, n) ∈ m ↔ n = xs.count key ∧ 0 < n := by
  rw [← h.lookup key]
  constructor
  · intro mem
    rw [lookup_of_mem h.ordered mem]
    exact ⟨rfl, h.positive _ mem⟩
  · rintro ⟨eq, positive⟩
    cases entry : m.lookup key with
    | none =>
      rw [eq, entry] at positive
      cases positive
    | some k =>
      obtain ⟨before, after, split, -⟩ := lookup_eq_some_iff.1 entry
      rw [eq, entry, split]
      exact mem_append_right before mem_cons_self

variable [TransOrd α]

/-- Some keys have one tally. -/
theorem unique (h : m.Counts xs) (h' : m'.Counts xs) : m = m' := by
  have same : m.Perm m' := by
    rw [perm_ext_iff_of_nodup h.ordered.nodup h'.ordered.nodup]
    rintro ⟨key, n⟩
    rw [h.mem_iff, h'.mem_iff]
  -- the same entries, and both times in the order of the keys
  refine same.eq_of_pairwise (fun a b _ _ before after => ?_) h.ordered h'.ordered
  exact absurd after (OrientedCmp.not_lt_of_lt before)

/-- A key is met once more. -/
theorem add (h : m.Counts xs) (key : α) : (m.add key).Counts (xs ++ [key]) where
  ordered := h.ordered.add key
  positive e he := by
    rcases mem_add he with ⟨-, positive⟩ | old
    · exact positive
    · exact h.positive e old
  lookup key' := by
    rw [lookup_add h.ordered, count_append, count_singleton, ← h.lookup key']
    by_cases same : key' == key
    · obtain rfl := eq_of_beq same
      rw [if_pos same, if_pos same]
      rfl
    · have other : ¬ (key == key') := fun eq => same (BEq.symm eq)
      rw [if_neg same, if_neg other]
      rfl
  sum := by rw [sum_add, h.sum, length_append, length_singleton]

end Counts

end CommandLine.Tally

end TierLint
