import TierLint.Text

/-!
# Positions that a match can reach

A match of a sequence of tokens begins at the start of a text, and each token
takes it from some positions to others further on. `Reach` is the text with a
mark at each position that some match of the tokens so far can end at. All
matches advance at once, so the work is one pass over the text for each token,
however many ways of matching there are.

What a text looks like from the marked positions is `places`. The lemmas say
what each operation does to it: going over a byte takes a byte off, going over
many bytes takes any number of them off, and a union has the places of both.
-/

set_option autoImplicit false

namespace TierLint.Glob

/-- The bytes of a text, with a mark at each position. -/
inductive Reach where
  /-- The end of the text. -/
  | atEnd (reached : Bool)
  /-- The position in front of a byte. -/
  | before (reached : Bool) (b : UInt8) (rest : Reach)

namespace Reach

/-- The bytes of the text. -/
def bytes : Reach → List UInt8
  | atEnd _ => []
  | before _ b rest => b :: rest.bytes

/-- What the text has left at the positions that are reached. -/
def places : Reach → List (List UInt8)
  | atEnd reached => if reached then [[]] else []
  | before reached b rest => (if reached then [b :: rest.bytes] else []) ++ rest.places

/-- The text with no position reached but the start, if `start` says so. -/
def ofBytes (start : Bool) : List UInt8 → Reach
  | [] => atEnd start
  | b :: s => before start b (ofBytes false s)

/-- The end of the text is reached. -/
def reachesEnd : Reach → Bool
  | atEnd reached => reached
  | before _ _ rest => rest.reachesEnd

/-- No position is reached. -/
def isNowhere : Reach → Bool
  | atEnd reached => !reached
  | before reached _ rest => !reached && rest.isNowhere

/-- Goes over one byte that satisfies `p`; `here` tells whether the byte in front of the text was
gone over. -/
def overOneFrom (p : UInt8 → Bool) (here : Bool) : Reach → Reach
  | atEnd _ => atEnd here
  | before reached b rest => before here b (overOneFrom p (reached && p b) rest)

/-- Goes over one byte that satisfies `p`. -/
def overOne (r : Reach) (p : UInt8 → Bool) : Reach := overOneFrom p false r

/-- Goes over any number of bytes that satisfy `p`; `here` tells whether the byte in front of the
text was gone over. -/
def overManyFrom (p : UInt8 → Bool) (here : Bool) : Reach → Reach
  | atEnd reached => atEnd (reached || here)
  | before reached b rest =>
    before (reached || here) b (overManyFrom p ((reached || here) && p b) rest)

/-- Goes over any number of bytes that satisfy `p`. -/
def overMany (r : Reach) (p : UInt8 → Bool) : Reach := overManyFrom p false r

/-- Goes over any number of bytes and one more that satisfies `p`. -/
def overUpTo (r : Reach) (p : UInt8 → Bool) : Reach := (r.overMany fun _ => true).overOne p

/-- Leaves all positions. -/
def clear (r : Reach) : Reach := r.overOne fun _ => false

/-- The positions of either of two marked copies of a text. -/
def union : Reach → Reach → Reach
  | atEnd reached, atEnd reached' => atEnd (reached || reached')
  | before reached b rest, before reached' _ rest' =>
    before (reached || reached') b (union rest rest')
  | r, _ => r

@[simp] theorem bytes_ofBytes (start : Bool) (s : List UInt8) : (ofBytes start s).bytes = s := by
  induction s generalizing start with
  | nil => rfl
  | cons b s ih => exact congrArg (b :: ·) (ih false)

theorem bytes_overOneFrom (p : UInt8 → Bool) (here : Bool) (r : Reach) :
    (r.overOneFrom p here).bytes = r.bytes := by
  induction r generalizing here with
  | atEnd => rfl
  | before _ b _ ih => exact congrArg (b :: ·) (ih _)

@[simp] theorem bytes_overOne (r : Reach) (p : UInt8 → Bool) : (r.overOne p).bytes = r.bytes :=
  bytes_overOneFrom p false r

theorem bytes_overManyFrom (p : UInt8 → Bool) (here : Bool) (r : Reach) :
    (r.overManyFrom p here).bytes = r.bytes := by
  induction r generalizing here with
  | atEnd => rfl
  | before _ b _ ih => exact congrArg (b :: ·) (ih _)

@[simp] theorem bytes_overMany (r : Reach) (p : UInt8 → Bool) : (r.overMany p).bytes = r.bytes :=
  bytes_overManyFrom p false r

@[simp] theorem bytes_overUpTo (r : Reach) (p : UInt8 → Bool) : (r.overUpTo p).bytes = r.bytes := by
  rw [overUpTo, bytes_overOne, bytes_overMany]

@[simp] theorem bytes_clear (r : Reach) : r.clear.bytes = r.bytes := bytes_overOne ..

@[simp] theorem bytes_union (r r' : Reach) : (r.union r').bytes = r.bytes := by
  fun_induction union r r' with
  | case1 => rfl
  | case2 _ b _ _ _ _ ih => exact congrArg (b :: ·) ih
  | case3 => rfl

@[simp] theorem mem_places_atEnd {reached : Bool} {t : List UInt8} :
    t ∈ (atEnd reached).places ↔ reached = true ∧ t = [] := by
  cases reached <;> simp [places]

@[simp] theorem mem_places_before {reached : Bool} {b : UInt8} {rest : Reach} {t : List UInt8} :
    t ∈ (before reached b rest).places ↔
      (reached = true ∧ t = b :: rest.bytes) ∨ t ∈ rest.places := by
  cases reached <;> simp [places]

/-- Only the start is reached at first. -/
theorem mem_places_ofBytes {start : Bool} {s t : List UInt8} :
    t ∈ (ofBytes start s).places ↔ start = true ∧ t = s := by
  induction s generalizing start with
  | nil => simp [ofBytes]
  | cons b s ih => simp [ofBytes, ih]

/-- The end is the position with nothing left. -/
theorem reachesEnd_iff (r : Reach) : r.reachesEnd = true ↔ [] ∈ r.places := by
  induction r with
  | atEnd => simp [reachesEnd]
  | before _ _ _ ih => simp [reachesEnd, ih]

theorem isNowhere_iff (r : Reach) : r.isNowhere = true ↔ ∀ t, t ∉ r.places := by
  induction r with
  | atEnd => simp [isNowhere]
  | before _ _ _ ih =>
    simp only [isNowhere, Bool.and_eq_true, Bool.not_eq_true', ih, mem_places_before]
    constructor
    · rintro ⟨no, none⟩ t (⟨yes, -⟩ | ht)
      · simp [no] at yes
      · exact none t ht
    · intro none
      exact ⟨Bool.eq_false_iff.2 fun yes => none _ (.inl ⟨yes, rfl⟩), fun t ht => none t (.inr ht)⟩

theorem mem_places_overOneFrom {p : UInt8 → Bool} {here : Bool} {r : Reach} {t : List UInt8} :
    t ∈ (r.overOneFrom p here).places ↔
      (here = true ∧ t = r.bytes) ∨ ∃ b, p b = true ∧ b :: t ∈ r.places := by
  induction r generalizing here with
  | atEnd => simp [overOneFrom, bytes]
  | before reached b rest ih =>
    simp only [overOneFrom, mem_places_before, bytes_overOneFrom, bytes, ih, Bool.and_eq_true,
      List.cons.injEq]
    constructor
    · rintro (h | ⟨⟨hr, hb⟩, rfl⟩ | ⟨c, hc, hm⟩)
      · exact .inl h
      · exact .inr ⟨b, hb, .inl ⟨hr, rfl, rfl⟩⟩
      · exact .inr ⟨c, hc, .inr hm⟩
    · rintro (h | ⟨c, hc, ⟨hr, rfl, rfl⟩ | hm⟩)
      · exact .inl h
      · exact .inr (.inl ⟨⟨hr, hc⟩, rfl⟩)
      · exact .inr (.inr ⟨c, hc, hm⟩)

/-- Going over a byte takes a byte off. -/
theorem mem_places_overOne {p : UInt8 → Bool} {r : Reach} {t : List UInt8} :
    t ∈ (r.overOne p).places ↔ ∃ b, p b = true ∧ b :: t ∈ r.places := by
  rw [overOne, mem_places_overOneFrom]
  exact or_iff_right fun h => Bool.false_ne_true h.1

theorem mem_places_overManyFrom {p : UInt8 → Bool} {here : Bool} {r : Reach} {t : List UInt8} :
    t ∈ (r.overManyFrom p here).places ↔
      ∃ u, (∀ b ∈ u, p b = true) ∧ ((here = true ∧ u ++ t = r.bytes) ∨ u ++ t ∈ r.places) := by
  induction r generalizing here with
  | atEnd reached =>
    simp only [overManyFrom, mem_places_atEnd, bytes, Bool.or_eq_true, List.append_eq_nil_iff]
    constructor
    · rintro ⟨hr | hh, rfl⟩
      · exact ⟨[], by simp, .inr ⟨hr, rfl, rfl⟩⟩
      · exact ⟨[], by simp, .inl ⟨hh, rfl, rfl⟩⟩
    · rintro ⟨u, -, ⟨hh, -, rfl⟩ | ⟨hr, -, rfl⟩⟩
      · exact ⟨.inr hh, rfl⟩
      · exact ⟨.inl hr, rfl⟩
  | before reached b rest ih =>
    simp only [overManyFrom, mem_places_before, bytes_overManyFrom, bytes, ih, Bool.and_eq_true,
      Bool.or_eq_true]
    constructor
    · rintro (⟨hr | hh, rfl⟩ | ⟨u, hu, ⟨⟨hr | hh, hb⟩, eq⟩ | hm⟩)
      · exact ⟨[], by simp, .inr (.inl ⟨hr, rfl⟩)⟩
      · exact ⟨[], by simp, .inl ⟨hh, rfl⟩⟩
      · exact ⟨b :: u, List.forall_mem_cons.2 ⟨hb, hu⟩, .inr (.inl ⟨hr, congrArg (b :: ·) eq⟩)⟩
      · exact ⟨b :: u, List.forall_mem_cons.2 ⟨hb, hu⟩, .inl ⟨hh, congrArg (b :: ·) eq⟩⟩
      · exact ⟨u, hu, .inr (.inr hm)⟩
    · rintro ⟨u, hu, h⟩
      cases u with
      | nil =>
        rcases h with ⟨hh, eq⟩ | ⟨hr, eq⟩ | hm
        · exact .inl ⟨.inr hh, eq⟩
        · exact .inl ⟨.inl hr, eq⟩
        · exact .inr ⟨[], by simp, .inr hm⟩
      | cons c u =>
        obtain ⟨hc, hu⟩ := List.forall_mem_cons.1 hu
        rcases h with ⟨hh, eq⟩ | ⟨hr, eq⟩ | hm
        · obtain ⟨rfl, eq'⟩ := List.cons.inj eq
          exact .inr ⟨u, hu, .inl ⟨⟨.inr hh, hc⟩, eq'⟩⟩
        · obtain ⟨rfl, eq'⟩ := List.cons.inj eq
          exact .inr ⟨u, hu, .inl ⟨⟨.inl hr, hc⟩, eq'⟩⟩
        · exact .inr ⟨c :: u, List.forall_mem_cons.2 ⟨hc, hu⟩, .inr hm⟩

/-- Going over many bytes takes any number of bytes off. -/
theorem mem_places_overMany {p : UInt8 → Bool} {r : Reach} {t : List UInt8} :
    t ∈ (r.overMany p).places ↔ ∃ u, (∀ b ∈ u, p b = true) ∧ u ++ t ∈ r.places := by
  rw [overMany, mem_places_overManyFrom]
  exact exists_congr fun u => and_congr_right' (or_iff_right fun h => Bool.false_ne_true h.1)

/-- Going up to a byte takes any bytes and this byte off. -/
theorem mem_places_overUpTo {p : UInt8 → Bool} {r : Reach} {t : List UInt8} :
    t ∈ (r.overUpTo p).places ↔ ∃ u b, p b = true ∧ u ++ b :: t ∈ r.places := by
  simp only [overUpTo, mem_places_overOne, mem_places_overMany, implies_true, true_and]
  exact ⟨fun ⟨b, hb, u, h⟩ => ⟨u, b, hb, h⟩, fun ⟨u, b, hb, h⟩ => ⟨b, hb, u, h⟩⟩

theorem not_mem_places_clear (r : Reach) (t : List UInt8) : t ∉ r.clear.places := by
  rw [clear, mem_places_overOne]
  rintro ⟨b, hb, -⟩
  exact Bool.false_ne_true hb

/-- A union has the places of both. -/
theorem mem_places_union {r r' : Reach} (same : r.bytes = r'.bytes) {t : List UInt8} :
    t ∈ (r.union r').places ↔ t ∈ r.places ∨ t ∈ r'.places := by
  induction r generalizing r' with
  | atEnd =>
    cases r' with
    | atEnd => simp [union, or_and_right]
    | before => simp [bytes] at same
  | before reached b rest ih =>
    cases r' with
    | atEnd => simp [bytes] at same
    | before reached' b' rest' =>
      obtain ⟨rfl, eq⟩ := List.cons.inj same
      simp only [union, mem_places_before, bytes_union, ih eq, ← eq, Bool.or_eq_true, or_and_right]
      exact or_or_or_comm

end Reach

end TierLint.Glob
