import TierLint.Proofs.InStep
import TierLint.Proofs.Text.Cut

/-!
# Texts with other line breaks

A text with some of its line feeds made carriage return and line feed, and perhaps with one line
feed more at its end (`Rebroken`). Trimming takes the difference at the end away (`Rebroken.trim`),
and between texts without line feeds there is none (`Rebroken.eq_of_lf_not_mem`).
What has become of a part of the text is told by the other text (`SpelledAs`).
-/

set_option autoImplicit false

namespace TierLint

open Unicode Text

/-- The second text is the first one with some line feeds made carriage return and line feed, if
they are `free`, and perhaps with one at the end if it is the `last` one. -/
inductive Rebroken (free last : Bool) : Text → Text → Prop
  | nil : Rebroken free last [] []
  | char (c : Char) {t u : Text} : Rebroken free last t u → Rebroken free last (c :: t) (c :: u)
  | crlf {t u : Text} :
      free = true → Rebroken free last t u → Rebroken free last ('\n' :: t) ('\r' :: '\n' :: u)
  | final : free = true → last = true → Rebroken free last [] ['\n']

namespace Rebroken

variable {free last : Bool} {t u t' u' : Text}

theorem refl (t : Text) : Rebroken free last t t := by
  induction t with
  | nil => exact .nil
  | cons c t ih => exact .char c ih

theorem weaken (h : Rebroken free false t u) : Rebroken free last t u := by
  induction h with
  | nil => exact .nil
  | char c _ ih => exact .char c ih
  | crlf hf _ ih => exact .crlf hf ih
  | final _ ended => cases ended

/-- Texts one behind the other. Only where nothing follows may the first part lack a line feed. -/
theorem append (h : Rebroken free (last && t'.isEmpty && u'.isEmpty) t u)
    (h' : Rebroken free last t' u') : Rebroken free last (t ++ t') (u ++ u') := by
  induction h with
  | nil => exact h'
  | char c _ ih => exact .char c ih
  | crlf hf _ ih => exact .crlf hf ih
  | final hf ended =>
    obtain ⟨⟨hl, ht⟩, hu⟩ : (last = true ∧ t'.isEmpty = true) ∧ u'.isEmpty = true := by
      simpa using ended
    rw [List.isEmpty_iff.1 ht, List.isEmpty_iff.1 hu]
    exact .final hf hl

theorem eq_of_strict (h : Rebroken false last t u) : t = u := by
  induction h with
  | nil => rfl
  | char c _ ih => rw [ih]
  | crlf hf => cases hf
  | final hf => cases hf

/-- Without line feeds there is nothing to break in another way. -/
theorem eq_of_lf_not_mem (h : Rebroken free false t u) (hlf : '\n' ∉ t) : t = u := by
  induction h with
  | nil => rfl
  | char c _ ih => rw [ih fun mem => hlf (List.mem_cons_of_mem c mem)]
  | crlf => exact absurd List.mem_cons_self hlf
  | final _ ended => cases ended

/-- No break is cut: the parts of a text are broken in another way one by one. -/
theorem exists_append (h : Rebroken free false (t ++ t') u) :
    ∃ v v', u = v ++ v' ∧ Rebroken free false t v ∧ Rebroken free false t' v' := by
  induction t generalizing u with
  | nil => exact ⟨[], u, rfl, .nil, h⟩
  | cons c t ih =>
    rw [List.cons_append] at h
    cases h with
    | char _ h =>
      obtain ⟨v, v', rfl, first, second⟩ := ih h
      exact ⟨c :: v, v', rfl, .char c first, second⟩
    | crlf hf h =>
      obtain ⟨v, v', rfl, first, second⟩ := ih h
      exact ⟨'\r' :: '\n' :: v, v', rfl, .crlf hf first, second⟩

/-- How a text is broken tells where a part of it ends. -/
theorem append_inj {w w' : Text} (h : Rebroken free false t u) (h' : Rebroken free false t u')
    (eq : u ++ w = u' ++ w') : u = u' ∧ w = w' := by
  induction h generalizing u' with
  | nil =>
    cases h' with
    | nil => exact ⟨rfl, eq⟩
    | final _ ended => cases ended
  | char c _ ih =>
    cases h' with
    | char _ h' =>
      obtain ⟨rfl, rfl⟩ := ih h' (List.cons.inj eq).2
      exact ⟨rfl, rfl⟩
    | crlf => cases (List.cons.inj eq).1
  | crlf _ _ ih =>
    cases h' with
    | char => cases (List.cons.inj eq).1
    | crlf _ h' =>
      obtain ⟨rfl, rfl⟩ := ih h' (List.cons.inj (List.cons.inj eq).2).2
      exact ⟨rfl, rfl⟩
  | final _ ended => cases ended

/-- A break ends with a line feed in either form. -/
theorem getLast?_eq (h : Rebroken free false t u) : t.getLast? = u.getLast? := by
  induction h with
  | nil => rfl
  | char c _ ih => rw [List.getLast?_cons, List.getLast?_cons, ih]
  | crlf _ _ ih => simp [List.getLast?_cons, ih]
  | final _ ended => cases ended

/-- A test that does not tell the characters of a break apart sees both texts begin alike. -/
theorem startsBy_eq {p : Char → Bool} (same : p '\n' = p '\r') (h : Rebroken free false t u) :
    startsBy p t = startsBy p u := by
  cases h with
  | nil => rfl
  | char => rfl
  | crlf => exact same
  | final _ ended => cases ended

theorem lf_mem (h : Rebroken free last t u) (hlf : '\n' ∈ t) : '\n' ∈ u := by
  induction h with
  | nil => exact hlf
  | char c _ ih =>
    rcases List.mem_cons.1 hlf with rfl | mem
    · exact List.mem_cons_self
    · exact List.mem_cons_of_mem c (ih mem)
  | crlf => simp
  | final => simp

theorem isEmpty_eq (h : Rebroken free false t u) : t.isEmpty = u.isEmpty := by
  cases h with
  | nil => rfl
  | char => rfl
  | crlf => rfl
  | final _ ended => cases ended

end Rebroken

/-! ## Parts of a text -/

/-- The text `u` is `a ++ m ++ b`, with some line feeds made carriage return and line feed, and `m'`
is what has become of `m`. -/
structure SpelledAs (a m b u m' : Text) : Prop where
  parts : ∃ a' b', u = a' ++ m' ++ b' ∧ Rebroken true false a a' ∧ Rebroken true false b b'
  own : Rebroken true false m m'

/-- Each part of a text with other breaks is found again. -/
theorem Rebroken.exists_spelledAs {a m b u : Text} (h : Rebroken true false (a ++ m ++ b) u) :
    ∃ m', SpelledAs a m b u m' := by
  obtain ⟨v, b', rfl, inFront, ends⟩ := h.exists_append
  obtain ⟨a', m', rfl, begins, own⟩ := inFront.exists_append
  exact ⟨m', ⟨a', b', rfl, begins, ends⟩, own⟩

/-- It is found in one place only. -/
theorem SpelledAs.unique {a m b u m' m'' : Text} (h : SpelledAs a m b u m')
    (h' : SpelledAs a m b u m'') : m' = m'' := by
  obtain ⟨⟨a', b', rfl, begins, -⟩, own⟩ := h
  obtain ⟨⟨a'', b'', eq, begins', -⟩, own'⟩ := h'
  rw [List.append_assoc, List.append_assoc] at eq
  obtain ⟨-, eq⟩ := begins.append_inj begins' eq
  exact (own.append_inj own' eq).1

namespace Rebroken

variable {free last : Bool} {t u : Text}

/-! ## Trimming -/

theorem isWhiteSpace_cr : isWhiteSpace '\r' = true := by decide

theorem isWhiteSpace_lf : isWhiteSpace '\n' = true := by decide

theorem trimStart (h : Rebroken free last t u) :
    Rebroken free last (Text.trimStart t) (Text.trimStart u) := by
  induction h with
  | nil => exact .nil
  | @char c t u rest ih =>
    rw [Text.trimStart, Text.trimStart, List.dropWhile_cons, List.dropWhile_cons]
    split
    · exact ih
    · exact .char c rest
  | crlf _ _ ih =>
    simpa [Text.trimStart, List.dropWhile_cons, isWhiteSpace_cr, isWhiteSpace_lf] using ih
  | final => simpa [Text.trimStart, List.dropWhile_cons, isWhiteSpace_lf] using .nil

theorem trimEnd (h : Rebroken free last t u) :
    Rebroken free false (Text.trimEnd t) (Text.trimEnd u) := by
  induction h with
  | nil => exact .nil
  | char c _ ih =>
    rw [Text.trimEnd, Text.trimEnd, dropEndWhile_cons, dropEndWhile_cons]
    rw [Text.trimEnd, Text.trimEnd] at ih
    rw [ih.isEmpty_eq]
    split
    · exact .nil
    · exact .char c ih
  | @crlf t u hf _ ih =>
    rw [Text.trimEnd, Text.trimEnd, dropEndWhile_cons, dropEndWhile_cons, dropEndWhile_cons]
    rw [Text.trimEnd, Text.trimEnd] at ih
    rw [ih.isEmpty_eq]
    -- a break is trimmed as a whole, or not at all
    cases left : (dropEndWhile isWhiteSpace u).isEmpty with
    | true => simpa [isWhiteSpace_cr, isWhiteSpace_lf] using .nil
    | false => simpa [isWhiteSpace_cr, isWhiteSpace_lf] using .crlf hf ih
  | final => simpa [Text.trimEnd, dropEndWhile_cons, isWhiteSpace_lf, dropEndWhile] using .nil

theorem trim (h : Rebroken free last t u) : Rebroken free false (Text.trim t) (Text.trim u) :=
  h.trimStart.trimEnd

/-- The characters in front of the first white space are the same. -/
theorem takeWhile_eq (h : Rebroken free last t u) :
    t.takeWhile (!isWhiteSpace ·) = u.takeWhile (!isWhiteSpace ·) := by
  induction h with
  | nil => rfl
  | char c _ ih => rw [List.takeWhile_cons, List.takeWhile_cons, ih]
  | crlf => simp [isWhiteSpace_cr, isWhiteSpace_lf]
  | final => simp [isWhiteSpace_lf]

end Rebroken

end TierLint
