import Mathlib.Data.List.Sort
import TierLint.Proofs.Block.Coverage
import TierLint.Proofs.Inline.Atoms
import TierLint.Proofs.Text.Cut

/-!
# Pipes between cells

A row is cut at pipes outside code, but it does not read code spans: every backtick that no
backslash hides opens or closes code for it. So a pipe separates if an even number of such backticks
stands in front of it (`Table.mem_separators`). Compared with the code spans of running text, a pipe
is misjudged exactly where the number of backticks in front of it does not tell whether it is code
(`Table.separators_eq_iff`).
-/

set_option autoImplicit false

namespace TierLint

open List Text

/-- A place in a list is the first one, or a place in what follows. -/
theorem exists_append_cons_iff {α : Type} {a x : α} {l : List α} {p : List α → Prop} :
    (∃ front behind, a :: l = front ++ x :: behind ∧ p front) ↔
      (a = x ∧ p []) ∨ ∃ front behind, l = front ++ x :: behind ∧ p (a :: front) := by
  constructor
  · rintro ⟨front, behind, eq, h⟩
    obtain ⟨rfl, eq⟩ | ⟨front, rfl, rfl⟩ := cons_eq_append_iff.1 eq
    · exact .inl ⟨(cons.inj eq).1, h⟩
    · exact .inr ⟨front, behind, rfl, h⟩
  · rintro (⟨rfl, h⟩ | ⟨front, behind, rfl, h⟩)
    · exact ⟨[], l, rfl, h⟩
    · exact ⟨a :: front, behind, rfl, h⟩

namespace Text

/-- The text ends in a backslash that hides what follows. -/
def hides (hidden : Bool) : Text → Bool
  | [] => hidden
  | c :: rest => hides (!hidden && c == '\\') rest

/-- Number of backticks that no backslash hides. -/
def bareTicks (hidden : Bool) : Text → Nat
  | [] => 0
  | c :: rest =>
    (if !hidden && c == '`' then 1 else 0) + bareTicks (!hidden && c == '\\') rest

theorem hides_append (hidden : Bool) (u v : Text) :
    hides hidden (u ++ v) = hides (hides hidden u) v := by
  induction u generalizing hidden with
  | nil => rfl
  | cons c u ih => exact ih _

/-- Only a backslash hides. -/
theorem hides_append_singleton (hidden : Bool) (u : Text) {c : Char} (h : c ≠ '\\') :
    hides hidden (u ++ [c]) = false := by
  rw [hides_append, hides, beq_false_of_ne h, Bool.and_false]
  rfl

theorem hides_append_replicate (hidden : Bool) (u : Text) {c : Char} (h : c ≠ '\\') (n : Nat) :
    hides hidden (u ++ replicate (n + 1) c) = false := by
  rw [replicate_succ', ← append_assoc, hides_append_singleton hidden _ h]

theorem hides_replicate {c : Char} (h : c ≠ '\\') (n : Nat) :
    hides false (replicate n c) = false := by
  cases n with
  | zero => rfl
  | succ n => exact hides_append_replicate false [] h n

variable {u v p q : Text} {c : Char}

/-- A character that the first of two texts does not have stands in the second. -/
theorem exists_of_append_eq (h : u ++ v = p ++ c :: q) (hu : c ∉ u) :
    ∃ w, p = u ++ w ∧ v = w ++ c :: q := by
  obtain ⟨w, rfl, eq⟩ | ⟨w, rfl, eq⟩ := append_eq_append_iff.1 h
  · exact ⟨w, rfl, eq⟩
  · cases w with
    | nil => exact ⟨[], by rw [append_nil, append_nil], eq.symm⟩
    | cons d w =>
      obtain ⟨rfl, -⟩ := cons.inj eq
      exact absurd (mem_append_right p mem_cons_self) hu

/-- A character that the second of two texts does not have stands in the first. -/
theorem exists_of_eq_append (h : u ++ v = p ++ c :: q) (hv : c ∉ v) : ∃ z, u = p ++ c :: z := by
  obtain ⟨w, rfl, rfl⟩ | ⟨w, rfl, eq⟩ := append_eq_append_iff.1 h
  · exact absurd (mem_append_right w mem_cons_self) hv
  · cases w with
    | nil =>
      rw [nil_append] at eq
      exact absurd (eq ▸ mem_cons_self) hv
    | cons d w =>
      obtain ⟨rfl, -⟩ := cons.inj eq
      exact ⟨w, rfl⟩

end Text

namespace Atom

/-- The byte offsets at which the character stands for itself, in a text that begins at `start`. -/
def offsets (c : Char) (start : Nat) : List Atom → List Nat
  | [] => []
  | a :: as =>
    if a.isPlain c then start :: offsets c (start + byteLength a.source) as
    else offsets c (start + byteLength a.source) as

variable {c : Char} {n start : Nat} {a : Atom} {as front behind : List Atom} {t u v : Text}

theorem isPlain_iff : a.isPlain c = true ↔ a = .plain c := by
  cases a with
  | plain d => exact beq_iff_eq.trans ⟨congrArg plain, fun h => Atom.plain.inj h⟩
  | _ => exact iff_of_false nofun nofun

theorem mem_offsets : n ∈ offsets c start as ↔
    ∃ front behind, as = front ++ .plain c :: behind ∧ n = start + byteLength (textOf front) := by
  induction as generalizing start with
  | nil => exact iff_of_false not_mem_nil fun ⟨front, behind, h, _⟩ => by simp at h
  | cons a as ih =>
    have first : n ∈ offsets c start (a :: as) ↔
        (a = .plain c ∧ n = start) ∨ n ∈ offsets c (start + byteLength a.source) as := by
      rw [offsets, ← isPlain_iff]
      split
      · rename_i h
        rw [mem_cons, h, eq_self, true_and]
      · rename_i h
        rw [eq_false h, false_and, false_or]
    rw [first, ih, exists_append_cons_iff]
    refine or_congr Iff.rfl (exists_congr fun front => exists_congr fun behind => ?_)
    rw [textOf_cons, byteLength_append, Nat.add_assoc]

theorem pairwise_offsets (c : Char) (start : Nat) (as : List Atom) :
    (offsets c start as).Pairwise (· < ·) := by
  induction as generalizing start with
  | nil => exact .nil
  | cons a as ih =>
    rw [offsets]
    split
    · rename_i plain
      refine pairwise_cons.2 ⟨fun n later => ?_, ih _⟩
      obtain ⟨front, -, -, rfl⟩ := mem_offsets.1 later
      rw [isPlain_iff.1 plain, source, byteLength_cons]
      have := c.utf8Size_pos
      omega
    · exact ih _

/-- A character of the text belongs to one of the steps. -/
theorem exists_of_textOf_eq (h : textOf as = u ++ c :: v) :
    ∃ front a behind p q, as = front ++ a :: behind ∧ a.source = p ++ c :: q ∧
      u = textOf front ++ p := by
  induction as generalizing u with
  | nil => simp at h
  | cons a as ih =>
    -- whatever stands behind the first step belongs to a later one
    have later {p : Text} (h : textOf as = p ++ c :: v) (eq : u = a.source ++ p) :
        ∃ front b behind p q, a :: as = front ++ b :: behind ∧ b.source = p ++ c :: q ∧
          u = textOf front ++ p := by
      obtain ⟨front, b, behind, p, q, rfl, hb, rfl⟩ := ih h
      exact ⟨a :: front, b, behind, p, q, rfl, hb, by rw [eq, textOf_cons, append_assoc]⟩
    rw [textOf_cons] at h
    obtain ⟨p, eq, rest⟩ | ⟨p, inside, rest⟩ := append_eq_append_iff.1 h
    · exact later rest eq
    · cases p with
      | nil => exact later (p := []) rest.symm (by rw [inside, append_nil, append_nil])
      | cons d p =>
        obtain ⟨rfl, -⟩ := cons.inj rest
        exact ⟨[], a, as, u, p, rfl, inside, rfl⟩

/-- It belongs to one of them only. -/
theorem eq_of_textOf_eq {front' behind' : List Atom} {a' : Atom} {p q p' q' : Text} {c' : Char}
    (h : front ++ a :: behind = front' ++ a' :: behind') (ha : a.source = p ++ c :: q)
    (ha' : a'.source = p' ++ c' :: q') (eq : textOf front ++ p = textOf front' ++ p') :
    front = front' ∧ a = a' ∧ p = p' := by
  induction front generalizing front' with
  | nil =>
    cases front' with
    | nil => exact ⟨rfl, (cons.inj h).1, eq⟩
    | cons b front' =>
      obtain ⟨rfl, -⟩ := cons.inj h
      have size := congrArg length eq
      rw [textOf_cons, ha] at size
      simp at size
  | cons b front ih =>
    cases front' with
    | nil =>
      obtain ⟨rfl, -⟩ := cons.inj h
      have size := congrArg length eq
      rw [textOf_cons, ha'] at size
      simp at size
    | cons b' front' =>
      obtain ⟨rfl, rest⟩ := cons.inj h
      rw [textOf_cons, textOf_cons, append_assoc, append_assoc] at eq
      obtain ⟨rfl, same⟩ := ih rest (append_cancel_left eq)
      exact ⟨rfl, same⟩

/-- Between two steps nothing is hidden. -/
theorem hides_textOf (h : ofText true t = front ++ a :: behind) :
    hides false (textOf front) = false := by
  -- the step in front of `as` does not hide what follows it
  have step {b : Atom} {as front : List Atom} (inert : hides false b.source = false)
      (h : b :: as = front ++ a :: behind)
      (ih : ∀ {front}, as = front ++ a :: behind → hides false (textOf front) = false) :
      hides false (textOf front) = false := by
    obtain ⟨rfl, -⟩ | ⟨front, rfl, later⟩ := cons_eq_append_iff.1 h
    · rfl
    · rw [textOf_cons, hides_append, inert, ih later]
  fun_induction ofText true t generalizing front with
  | case1 => simp at h
  | case2 c rest ih => exact step rfl h ih
  | case3 rest span after found ih =>
    obtain ⟨k, ticks⟩ := Nat.exists_eq_succ_of_ne_zero (CodeSpan.ticks_pos_of_read? found).ne'
    refine step ?_ h ih
    rw [source, CodeSpan.source, CodeSpan.marker, ticks]
    exact hides_append_replicate _ _ (by decide) k
  | case4 rest _ more =>
    rename_i ih
    exact step (b := .ticks (1 + more)) (hides_replicate (by decide) _) h ih
  | case5 c rest escape _ ih =>
    by_cases backslash : c = '\\'
    · cases rest with
      | nil =>
        rw [ofText] at h
        obtain ⟨rfl, -⟩ | ⟨front, rfl, later⟩ := cons_eq_append_iff.1 h
        · rfl
        · simp at later
      | cons d more => exact (escape d more backslash rfl).elim
    · exact step (b := .plain c) (hides_append_singleton false [] backslash) h ih

end Atom

namespace Table

open Atom

/-- The byte offsets of the pipes between pieces, the first of which begins at `start`. -/
def separators (start : Nat) : List Text → List Nat
  | [] => []
  | [_] => []
  | piece :: rest =>
    (start + byteLength piece) :: separators (start + byteLength piece + 1) rest

variable {inCode hidden : Bool} {n start : Nat} {ps : List Text} {t : Text}

theorem pieces_cons (inCode hidden : Bool) (c : Char) (t : Text) :
    pieces inCode hidden (c :: t) =
      if c = '|' ∧ hidden = false ∧ inCode = false then [] :: pieces false false t
      else consPiece c (pieces (inCode ^^ (!hidden && c == '`')) (!hidden && c == '\\') t) := by
  rw [pieces]
  cases hidden with
  | true => simp
  | false =>
    by_cases backslash : c = '\\'
    · subst backslash
      simp
    · by_cases tick : c = '`'
      · subst tick
        simp
      · cases inCode <;> simp [beq_false_of_ne backslash, beq_false_of_ne tick]

theorem separators_cons (h : ps ≠ []) (start : Nat) (piece : Text) :
    separators start (piece :: ps) =
      (start + byteLength piece) :: separators (start + byteLength piece + 1) ps := by
  rw [separators]
  exact h

/-- A character in front of the first piece moves all pipes. -/
theorem separators_consPiece (start : Nat) (c : Char) (ps : List Text) :
    separators start (consPiece c ps) = separators (start + c.utf8Size) ps := by
  cases ps with
  | nil => rfl
  | cons piece ps =>
    by_cases last : ps = []
    · rw [last]
      rfl
    · rw [consPiece, headD_cons, tail_cons, separators_cons last, separators_cons last,
        byteLength_cons, ← Nat.add_assoc]

/-- A further backtick changes sides. -/
theorem parity_xor (inCode tick : Bool) (n : Nat) :
    ((inCode ^^ tick).toNat + n) % 2 = 0 ↔
      (inCode.toNat + ((if tick then 1 else 0) + n)) % 2 = 0 := by
  cases tick with
  | false => rw [Bool.xor_false, if_neg Bool.false_ne_true, Nat.zero_add]
  | true =>
    rw [Bool.xor_true, if_pos rfl]
    cases inCode with
    | false => rw [Bool.not_false, Bool.toNat_true, Bool.toNat_false, Nat.zero_add]
    | true =>
      rw [Bool.not_true, Bool.toNat_true, Bool.toNat_false]
      omega

/-- A pipe separates if no backslash hides it and an even number of backticks stands in front. -/
theorem mem_separators : n ∈ separators start (pieces inCode hidden t) ↔
    ∃ u v, t = u ++ '|' :: v ∧ n = start + byteLength u ∧ hides hidden u = false ∧
      (inCode.toNat + bareTicks hidden u) % 2 = 0 := by
  induction t generalizing start inCode hidden with
  | nil => exact iff_of_false not_mem_nil fun ⟨u, v, h, _⟩ => by simp at h
  | cons c t ih =>
    rw [pieces_cons, exists_append_cons_iff]
    split_ifs with separates
    · -- the pipe separates, and behind it the scan is where it began
      obtain ⟨rfl, rfl, rfl⟩ := separates
      rw [separators_cons (pieces_ne_nil false false t), mem_cons, ih]
      refine or_congr (by simp [hides, bareTicks]) (exists_congr fun u => exists_congr fun v => ?_)
      have size : Char.utf8Size '|' = 1 := rfl
      rw [byteLength_nil, Nat.add_zero, byteLength_cons, size, Nat.add_assoc, hides, bareTicks]
      simp
    · -- the character joins its piece; the pipe, if it is one, is hidden or in code
      rw [separators_consPiece, ih, or_iff_right]
      · refine exists_congr fun u => exists_congr fun v => ?_
        rw [byteLength_cons, Nat.add_assoc, hides, bareTicks, parity_xor]
      · rintro ⟨rfl, -, visible, even⟩
        refine separates ⟨rfl, visible, ?_⟩
        cases inCode with
        | false => rfl
        | true => cases even

theorem le_of_mem_separators (h : n ∈ separators start ps) : start ≤ n := by
  fun_induction separators start ps with
  | case1 => cases h
  | case2 => cases h
  | case3 start piece ps _ ih =>
    obtain rfl | later := mem_cons.1 h
    · exact Nat.le_add_right ..
    · have := ih later
      omega

theorem pairwise_separators (start : Nat) (ps : List Text) :
    (separators start ps).Pairwise (· < ·) := by
  fun_induction separators start ps with
  | case1 => exact .nil
  | case2 => exact .nil
  | case3 start piece ps _ ih =>
    exact pairwise_cons.2 ⟨fun n later => le_of_mem_separators later, ih⟩

variable {content u v : Text}

/-- A pipe that no backslash hides stands for itself, or in code. -/
theorem cases_of_visible (h : content = u ++ '|' :: v) (visible : hides false u = false) :
    (∃ front behind, ofText true content = front ++ .plain '|' :: behind ∧ u = textOf front) ∨
    ∃ front span behind w z, ofText true content = front ++ .codeSpan span :: behind ∧
      span.content = w ++ '|' :: z ∧ u = textOf front ++ span.marker ++ w := by
  have whole : textOf (ofText true content) = u ++ '|' :: v := (textOf_ofText true content).trans h
  have foreign (n : Nat) : '|' ∉ replicate n '`' := fun mem =>
    absurd (mem_replicate.1 mem).2 (by decide)
  obtain ⟨front, a, behind, p, q, steps, inside, rfl⟩ := exists_of_textOf_eq whole
  cases a with
  | escape d =>
    -- the pipe would be hidden
    obtain ⟨rfl, eq⟩ | ⟨p, rfl, eq⟩ := cons_eq_append_iff.1 inside
    · cases eq
    · obtain ⟨rfl, -⟩ | ⟨_, -, eq⟩ := cons_eq_append_iff.1 eq
      · rw [hides_append, hides_textOf steps] at visible
        cases visible
      · simp at eq
  | codeSpan span =>
    -- the markers have no pipe, so it stands in the content
    obtain ⟨z, front'⟩ := exists_of_eq_append inside (foreign span.ticks)
    obtain ⟨w, rfl, content⟩ := exists_of_append_eq front' (foreign span.ticks)
    exact .inr ⟨front, span, behind, w, z, steps, content, (append_assoc ..).symm⟩
  | ticks k =>
    rw [source] at inside
    exact absurd (inside ▸ mem_append_right p mem_cons_self) (foreign k)
  | plain d =>
    obtain ⟨rfl, eq⟩ | ⟨_, -, eq⟩ := cons_eq_append_iff.1 inside
    · cases eq
      exact .inl ⟨front, behind, steps, append_nil _⟩
    · simp at eq

theorem hides_behind_marker {front behind : List Atom} {span : CodeSpan}
    (steps : ofText true content = front ++ .codeSpan span :: behind) (u : Text) :
    hides false (textOf front ++ span.marker ++ u) = hides false u := by
  rw [hides_append, hides_append, hides_textOf steps, CodeSpan.marker, hides_replicate (by decide)]

/-- **Pipes and code.** A row is cut at the pipes that stand for themselves in its running text,
exactly if the backticks in front of each pipe tell whether it is code: their number is even in
front of a pipe that stands for itself, and odd in front of one in a code span. Backticks behind a
backslash do not count, and neither do pipes. -/
theorem separators_eq_iff (content : Text) :
    separators 0 (pieces false false content) = offsets '|' 0 (ofText true content) ↔
      (∀ front behind, ofText true content = front ++ .plain '|' :: behind →
        bareTicks false (textOf front) % 2 = 0) ∧
      (∀ front span behind u v, ofText true content = front ++ .codeSpan span :: behind →
        span.content = u ++ '|' :: v → hides false u = false →
        bareTicks false (textOf front ++ span.marker ++ u) % 2 = 1) := by
  have code {n} : n ∈ separators 0 (pieces false false content) ↔ ∃ u v,
      content = u ++ '|' :: v ∧ n = byteLength u ∧ hides false u = false ∧
        bareTicks false u % 2 = 0 := by
    rw [mem_separators]
    simp only [Nat.zero_add, Bool.toNat_false]
  have plain {n} : n ∈ offsets '|' 0 (ofText true content) ↔ ∃ front behind,
      ofText true content = front ++ .plain '|' :: behind ∧ n = byteLength (textOf front) := by
    rw [mem_offsets]
    simp only [Nat.zero_add]
  have textEq {front a behind} (steps : ofText true content = front ++ a :: behind) :
      content = textOf front ++ (a.source ++ textOf behind) := by
    rw [← textOf_cons, ← textOf_append, ← steps, textOf_ofText]
  constructor
  · -- in either place, the pipe is in one list and so in the other
    intro same
    refine ⟨fun front behind steps => ?_, fun front span behind u v steps inside visible => ?_⟩
    · obtain ⟨u, v, eq, size, -, even⟩ := code.1 (same ▸ plain.2 ⟨front, behind, steps, rfl⟩)
      rwa [eq_of_byteLength_eq ((textEq steps).symm.trans eq) size]
    · refine (Nat.mod_two_eq_zero_or_one _).resolve_left fun even => ?_
      have source : (Atom.codeSpan span).source =
          span.marker ++ u ++ '|' :: (v ++ span.marker) := by
        rw [Atom.source, CodeSpan.source, inside]
        simp
      have eq : content = textOf front ++ span.marker ++ u ++
          '|' :: (v ++ span.marker ++ textOf behind) := by
        rw [textEq steps, source]
        simp
      have visible := (hides_behind_marker steps u).trans visible
      obtain ⟨front', behind', steps', size⟩ :=
        plain.1 (same ▸ code.2 ⟨_, _, eq, rfl, visible, even⟩)
      -- the pipe would belong to two steps
      have place := eq_of_byteLength_eq (eq.symm.trans (textEq steps')) size
      rw [append_assoc, ← append_nil (textOf front')] at place
      cases (eq_of_textOf_eq (steps.symm.trans steps') source rfl place).2.1
  · rintro ⟨outside, inside⟩
    -- both lists increase, so their members decide
    refine (pairwise_separators ..).eq_of_mem_iff (pairwise_offsets ..) fun n => ?_
    rw [code, plain]
    constructor
    · rintro ⟨u, v, eq, rfl, visible, even⟩
      obtain ⟨front, behind, steps, rfl⟩ | ⟨front, span, behind, w, z, steps, text, rfl⟩ :=
        cases_of_visible eq visible
      · exact ⟨front, behind, steps, rfl⟩
      · rw [hides_behind_marker steps] at visible
        have odd := inside front span behind w z steps text visible
        omega
    · rintro ⟨front, behind, steps, rfl⟩
      exact ⟨_, _, textEq steps, rfl, hides_textOf steps, outside _ _ steps⟩

/-- Two backticks open code for the running text, and none for the row. -/
theorem pipe_in_code_separates :
    let content := "| ``a|b`` | c |".toList
    separators 0 (pieces false false content) = [0, 5, 10, 14] ∧
      offsets '|' 0 (ofText true content) = [0, 10, 14] := by
  dsimp only
  refine ⟨by decide, ?_⟩
  have code : CodeSpan.read? "``a|b`` | c |".toList =
      some (⟨2, "a|b".toList⟩, " | c |".toList) := by decide +kernel
  simp only [String.reduceToList] at code
  have steps : ofText true "| ``a|b`` | c |".toList = [.plain '|', .plain ' ',
      .codeSpan ⟨2, "a|b".toList⟩, .plain ' ', .plain '|', .plain ' ', .plain 'c', .plain ' ',
      .plain '|'] := by
    simp [ofText_plain, ofText_codeSpan true code, ofText]
  rw [steps]
  decide

end Table

end TierLint
