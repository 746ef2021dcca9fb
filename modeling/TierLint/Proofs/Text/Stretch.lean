import TierLint.Text

/-!
# Stretches of a text

A range of bytes is a stretch of a text if it is not empty, lies inside the text and is cut between
characters on both sides (`Text.IsStretch`): some characters in front of it, and it, begin the text.
-/

set_option autoImplicit false

namespace TierLint

namespace Text

theorem byteLength_pos {t : Text} (ne : t ≠ []) : 0 < byteLength t := by
  cases t with
  | nil => exact absurd rfl ne
  | cons c t => exact Nat.lt_add_right _ c.utf8Size_pos

theorem length_le_byteLength (t : Text) : t.length ≤ byteLength t := by
  induction t with
  | nil => exact Nat.le_refl 0
  | cons c t ih =>
    have := c.utf8Size_pos
    rw [List.length_cons, byteLength_cons]
    omega

theorem byteLength_le_of_isPrefix {a t : Text} (h : a <+: t) : byteLength a ≤ byteLength t := by
  obtain ⟨rest, rfl⟩ := h
  rw [byteLength_append]
  exact Nat.le_add_right _ _

/-- The bytes from `start` up to `stop` are a stretch of the text: some of its characters, at least
one. -/
def IsStretch (t : Text) (start stop : Nat) : Prop :=
  ∃ front inside behind, t = front ++ inside ++ behind ∧ inside ≠ [] ∧
    start = byteLength front ∧ stop = byteLength (front ++ inside)

namespace IsStretch

variable {t : Text} {start stop : Nat}

theorem of_isPrefix {front inside : Text} (ne : inside ≠ []) (h : front ++ inside <+: t) :
    IsStretch t (byteLength front) (byteLength (front ++ inside)) := by
  obtain ⟨behind, rfl⟩ := h
  exact ⟨front, inside, behind, rfl, ne, rfl, rfl⟩

theorem append (h : IsStretch t start stop) (u : Text) : IsStretch (t ++ u) start stop := by
  obtain ⟨front, inside, behind, rfl, ne, rfl, rfl⟩ := h
  exact ⟨front, inside, behind ++ u, by simp, ne, rfl, rfl⟩

theorem lt (h : IsStretch t start stop) : start < stop := by
  obtain ⟨front, inside, behind, rfl, ne, rfl, rfl⟩ := h
  have := byteLength_pos ne
  rw [byteLength_append]
  omega

theorem le (h : IsStretch t start stop) : stop ≤ byteLength t := by
  obtain ⟨front, inside, behind, rfl, ne, rfl, rfl⟩ := h
  exact byteLength_le_of_isPrefix (List.prefix_append ..)

/-- A stretch may go on to the end of a longer text. -/
theorem extend (h : IsStretch t start stop) (u : Text) :
    IsStretch (t ++ u) start (byteLength (t ++ u)) := by
  obtain ⟨front, inside, behind, rfl, ne, rfl, rfl⟩ := h
  exact ⟨front, inside ++ behind ++ u, [], by simp, by simp [ne], rfl, by simp⟩

end IsStretch

end Text

end TierLint
