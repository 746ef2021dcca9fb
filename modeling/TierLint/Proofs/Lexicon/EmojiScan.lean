import Mathlib.Data.List.Infix
import TierLint.Lexicon.Emoji

/-!
# The scan for emoji misses no entry

At each place of a text the scan looks at the next one to three characters, and it passes over ASCII
characters unless the next character makes an emoji of them. So it relies on two facts about the
table of emoji (`Emoji.Searchable`): every entry begins with one that is no longer than three
characters, and every entry that begins with an ASCII character goes on with such a character. Then
it finds something exactly if an entry of any length occurs in the text (`Emoji.occursBy_iff_infix`).
-/

set_option autoImplicit false

namespace TierLint.Emoji

open List Unicode

/-- What the scan relies on in a table of emoji. -/
structure Searchable (table : Text → Bool) : Prop where
  /-- Every entry begins with an entry of one to three characters. -/
  short : ∀ e, table e = true → ∃ p, p <+: e ∧ 1 ≤ p.length ∧ p.length ≤ 3 ∧ table p = true
  /-- An entry that begins with an ASCII character goes on with one that makes an emoji of it. -/
  presented : ∀ c e, table (c :: e) = true → c.toNat < 128 → Text.startsBy presents e = true

variable {table : Text → Bool} {t : Text}

/-- What the scan finds is an entry of the table. -/
theorem exists_entry_of_startsEntry (h : startsEntry table t = true) :
    ∃ e, table e = true ∧ e <+: t := by
  cases t with
  | nil => cases h
  | cons c rest =>
    rw [startsEntry, Bool.and_eq_true, any_eq_true] at h
    obtain ⟨-, n, -, entry⟩ := h
    exact ⟨_, entry, take_prefix n _⟩

namespace Searchable

theorem ne_nil (h : Searchable table) {e : Text} (entry : table e = true) : e ≠ [] := by
  rintro rfl
  obtain ⟨p, begins, long, -, -⟩ := h.short [] entry
  rw [prefix_nil.1 begins] at long
  cases long

/-- Where an entry begins, the scan finds the short one that it begins with. -/
theorem startsEntry (h : Searchable table) {e : Text} (entry : table e = true)
    (begins : e <+: t) : startsEntry table t = true := by
  obtain ⟨p, ofEntry, long, short, found⟩ := h.short e entry
  have window : p = t.take p.length := prefix_iff_eq_take.1 (ofEntry.trans begins)
  obtain ⟨c, e, rfl⟩ := exists_cons_of_ne_nil (h.ne_nil entry)
  obtain ⟨behind, rfl⟩ := begins
  have seen : 128 ≤ c.toNat ∨ Text.startsBy presents (e ++ behind) = true := by
    rcases Nat.lt_or_ge c.toNat 128 with ascii | other
    · apply Or.inr
      have next := h.presented c e entry ascii
      cases e with
      | nil => cases next
      | cons d e => exact next
    · exact .inl other
  rw [cons_append, Emoji.startsEntry, Bool.and_eq_true, Bool.or_eq_true, decide_eq_true_eq,
    any_eq_true]
  refine ⟨seen, p.length, ?_, ?_⟩
  · simp only [mem_cons, not_mem_nil, or_false]
    omega
  · rwa [← cons_append, ← window]

/-- A text is found to hold an emoji exactly if an entry of the table occurs in it. -/
theorem occursBy_iff (h : Searchable table) (t : Text) :
    occursBy table t = true ↔ ∃ e, table e = true ∧ e <:+: t := by
  induction t with
  | nil =>
    constructor
    · intro found
      cases found
    · rintro ⟨e, entry, inside⟩
      exact absurd (infix_nil.1 inside) (h.ne_nil entry)
  | cons c t ih =>
    rw [occursBy, Bool.or_eq_true, ih]
    constructor
    · rintro (here | ⟨e, entry, later⟩)
      · obtain ⟨e, entry, begins⟩ := exists_entry_of_startsEntry here
        exact ⟨e, entry, begins.isInfix⟩
      · exact ⟨e, entry, infix_cons later⟩
    · rintro ⟨e, entry, inside⟩
      rcases infix_cons_iff.1 inside with begins | later
      · exact .inl (h.startsEntry entry begins)
      · exact .inr ⟨e, entry, later⟩

end Searchable

/-- The table can be scanned for. -/
theorem searchable_isEntry : Searchable isEntry where
  short e entry := by
    refine ⟨e, prefix_refl e, ?_⟩
    match e, entry with
    | [c], entry => exact ⟨le_rfl, Nat.le_add_left 1 2, entry⟩
    | [c, d], entry => exact ⟨Nat.le_add_left 1 1, Nat.le_add_left 2 1, entry⟩
    | [c, d, f], entry => exact ⟨Nat.le_add_left 1 2, le_rfl, entry⟩
  presented c e entry ascii := by
    match e, entry with
    | [], entry =>
      have none : covers singleRanges c.toNat = false := if_pos (show c.toNat < 0xA9 by omega)
      cases none.symm.trans entry
    | [d], entry =>
      have letter : indicatorLetter? c = none := by
        rw [indicatorLetter?, decide_eq_false (show ¬ 0x1F1E6 ≤ c.toNat by omega), Bool.false_and]
        rfl
      have other : isFlag c d = false := by rw [isFlag, letter]
      rw [isEntry, other, Bool.or_false, isColoredKey, isKeycapSequence, ← Bool.and_or_distrib_left,
        Bool.and_eq_true] at entry
      exact entry.2
    | [d, f], entry =>
      change (isKey c && d == variationSelector && f == keycap) = true at entry
      rw [Bool.and_eq_true, Bool.and_eq_true] at entry
      exact Bool.or_eq_true_iff.2 (.inl entry.1.2)

/-- The scan finds all that its own table has. -/
theorem occurs_iff_infix (t : Text) : occurs t = true ↔ ∃ e, isEntry e = true ∧ e <:+: t :=
  searchable_isEntry.occursBy_iff t

/-- **Completeness of the scan.** A text is found to hold an emoji exactly if an entry of the table
occurs in it; so it is found in a text as soon as it is found in a part of it. -/
theorem occursBy_iff_infix (h : Searchable table) :
    (∀ t, occursBy table t = true ↔ ∃ e, table e = true ∧ e <:+: t) ∧
      ∀ a b, occursBy table a = true ∨ occursBy table b = true →
        occursBy table (a ++ b) = true := by
  refine ⟨h.occursBy_iff, fun a b => ?_⟩
  rw [h.occursBy_iff, h.occursBy_iff, h.occursBy_iff]
  rintro (⟨e, entry, inside⟩ | ⟨e, entry, inside⟩)
  · exact ⟨e, entry, inside.trans (prefix_append a b).isInfix⟩
  · exact ⟨e, entry, inside.trans (suffix_append a b).isInfix⟩

/-- A table with a longer emoji, which is found by the shorter one that it begins with. -/
theorem occursBy_iff_infix_toned :
    let table : Text → Bool := fun e => isEntry e || e == "👍🏽".toList
    Searchable table ∧ occursBy table "1 👍🏽".toList = true ∧
      (∃ e, table e = true ∧ e <:+: "1 👍🏽".toList) ∧
      occursBy table ("1 👍🏽".toList ++ " #".toList) = true := by
  intro table
  have searchable : Searchable table := by
    refine ⟨fun e entry => ?_, fun c e entry ascii => ?_⟩
    · rcases Bool.or_eq_true_iff.1 entry with short | toned
      · obtain ⟨p, begins, long, atMost, found⟩ := searchable_isEntry.short e short
        exact ⟨p, begins, long, atMost, by simp [table, found]⟩
      · rw [eq_of_beq toned]
        exact ⟨"👍".toList, ⟨"🏽".toList, by decide⟩, by decide, by decide, by decide +kernel⟩
    · rcases Bool.or_eq_true_iff.1 entry with short | toned
      · exact searchable_isEntry.presented c e short ascii
      · obtain ⟨rfl, -⟩ := cons.inj (eq_of_beq toned)
        exact absurd ascii (by decide)
  have found : occursBy table "1 👍🏽".toList = true := by decide +kernel
  obtain ⟨complete, onward⟩ := occursBy_iff_infix searchable
  exact ⟨searchable, found, (complete _).1 found, onward _ _ (.inl found)⟩

end TierLint.Emoji
