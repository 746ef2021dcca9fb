import TierLint.Glob.Match

/-!
# What globs stand for

A token stands for byte strings (`Token.Takes`), and a sequence of tokens for the strings that are
made of such strings one behind the other (`Token.TakesAll`). The positions that a match can reach
are those that lie behind such a string (`mem_places_advance`), so a glob matches a text exactly if
its tokens stand for the bytes of the text (`accepts_iff`); leading directories alone match
everything.
-/

set_option autoImplicit false

namespace TierLint.Glob

namespace Token

mutual

/-- The token stands for the bytes. -/
def Takes (u : List UInt8) : Token → Prop
  | .literal c => u.map foldByte = (String.utf8EncodeChar c).map foldByte
  | .one => ∃ b, (b != slash) = true ∧ u = [b]
  | .many => ∀ b ∈ u, (b != slash) = true
  | .leadingDirs => u = [] ∨ ∃ w, u = w ++ [slash]
  | .innerDirs => u = [slash] ∨ ∃ w, u = slash :: w ++ [slash]
  | .belowDir => ∃ w, u = slash :: w
  | .oneOf negated ranges => ∃ b, (classHolds ranges b != negated) = true ∧ u = [b]
  | .alternatives branches =>
    if areVoid branches then u = [] else TakesAny u branches

/-- The tokens, one behind the other, stand for the bytes. -/
def TakesAll (u : List UInt8) : List Token → Prop
  | [] => u = []
  | t :: ts => ∃ v w, u = v ++ w ∧ t.Takes v ∧ TakesAll w ts

/-- One of the branches that are not void stands for the bytes. -/
def TakesAny (u : List UInt8) : List (List Token) → Prop
  | [] => False
  | b :: bs => (isVoidBranch b = false ∧ TakesAll u b) ∨ TakesAny u bs

end

/-- Bytes for tokens one behind the other fall into bytes for either part. -/
theorem takesAll_append {u : List UInt8} {ts us : List Token} :
    TakesAll u (ts ++ us) ↔ ∃ v w, u = v ++ w ∧ TakesAll v ts ∧ TakesAll w us := by
  induction ts generalizing u with
  | nil =>
    constructor
    · intro h
      exact ⟨[], u, rfl, rfl, h⟩
    · rintro ⟨v, w, rfl, rfl, h⟩
      exact h
  | cons t ts ih =>
    constructor
    · rintro ⟨v, w, rfl, ht, h⟩
      obtain ⟨v', w', rfl, hts, hus⟩ := ih.1 h
      exact ⟨v ++ v', w', (List.append_assoc ..).symm, ⟨v, v', rfl, ht, hts⟩, hus⟩
    · rintro ⟨_, w, rfl, ⟨v, v', rfl, ht, hts⟩, hus⟩
      exact ⟨v, v' ++ w, List.append_assoc .., ht, ih.2 ⟨v', w, rfl, hts, hus⟩⟩

/-! ## Positions behind a token -/

theorem bytes_foldl_overOne {bs : List UInt8} {r : Reach} :
    (bs.foldl (fun r b => r.overOne (foldByte b == foldByte ·)) r).bytes = r.bytes := by
  induction bs generalizing r with
  | nil => rfl
  | cons b bs ih => rw [List.foldl_cons, ih, Reach.bytes_overOne]

mutual

theorem bytes_advance (r : Reach) : (t : Token) → (t.advance r).bytes = r.bytes
  | .literal c => bytes_foldl_overOne
  | .one => Reach.bytes_overOne ..
  | .many => Reach.bytes_overMany ..
  | .leadingDirs => Reach.bytes_union ..
  | .innerDirs => by simp only [advance, Reach.bytes_union, Reach.bytes_overOne]
  | .belowDir => by simp only [advance, Reach.bytes_overMany, Reach.bytes_overOne]
  | .oneOf .. => Reach.bytes_overOne ..
  | .alternatives branches => by
    rw [advance]
    split
    · rfl
    · exact bytes_advanceAny r branches

theorem bytes_advanceAll (r : Reach) : (ts : List Token) → (advanceAll r ts).bytes = r.bytes
  | [] => rfl
  | t :: ts => by
    rw [advanceAll]
    split
    · rfl
    · rw [bytes_advanceAll _ ts, bytes_advance r t]

theorem bytes_advanceAny (r : Reach) :
    (bs : List (List Token)) → (advanceAny r bs).bytes = r.bytes
  | [] => Reach.bytes_clear r
  | b :: bs => by
    rw [advanceAny]
    split
    · exact bytes_advanceAny r bs
    · rw [Reach.bytes_union, bytes_advanceAll r b]

end

/-- Letters are gone over in either case. -/
theorem mem_places_foldl_overOne {bs : List UInt8} {r : Reach} {s : List UInt8} :
    s ∈ (bs.foldl (fun r b => r.overOne (foldByte b == foldByte ·)) r).places ↔
      ∃ u, u.map foldByte = bs.map foldByte ∧ u ++ s ∈ r.places := by
  induction bs generalizing r with
  | nil => simp
  | cons b bs ih =>
    rw [List.foldl_cons, ih]
    constructor
    · rintro ⟨u, hu, h⟩
      obtain ⟨a, ha, h⟩ := Reach.mem_places_overOne.1 h
      have same : foldByte b = foldByte a := by simpa using ha
      exact ⟨a :: u, by rw [List.map_cons, List.map_cons, hu, same], h⟩
    · rintro ⟨u, hu, h⟩
      cases u with
      | nil => simp at hu
      | cons a u =>
        obtain ⟨first, others⟩ : foldByte a = foldByte b ∧ u.map foldByte = bs.map foldByte := by
          simpa using hu
        exact ⟨u, others, Reach.mem_places_overOne.2 ⟨a, by simpa using first.symm, h⟩⟩

/-- Going over one byte of a kind takes a string of one such byte off. -/
theorem mem_places_overOne_iff {p : UInt8 → Bool} {r : Reach} {s : List UInt8} :
    s ∈ (r.overOne p).places ↔ ∃ u, (∃ b, p b = true ∧ u = [b]) ∧ u ++ s ∈ r.places := by
  rw [Reach.mem_places_overOne]
  constructor
  · rintro ⟨b, hb, h⟩
    exact ⟨[b], ⟨b, hb, rfl⟩, h⟩
  · rintro ⟨_, ⟨b, hb, rfl⟩, h⟩
    exact ⟨b, hb, h⟩

mutual

/-- A token leads to what lies behind the strings that it stands for. -/
theorem mem_places_advance (r : Reach) (s : List UInt8) :
    (t : Token) → (s ∈ (t.advance r).places ↔ ∃ u, t.Takes u ∧ u ++ s ∈ r.places)
  | .literal c => mem_places_foldl_overOne
  | .one => mem_places_overOne_iff
  | .many => Reach.mem_places_overMany
  | .leadingDirs => by
    -- nothing, or all up to some slash
    rw [advance, Reach.mem_places_union (by simp), Reach.mem_places_overUpTo]
    constructor
    · rintro (h | ⟨u, b, hb, h⟩)
      · exact ⟨[], .inl rfl, h⟩
      · obtain rfl : b = slash := by simpa using hb
        exact ⟨u ++ [slash], .inr ⟨u, rfl⟩, by simpa using h⟩
    · rintro ⟨u, rfl | ⟨w, rfl⟩, h⟩
      · exact .inl h
      · exact .inr ⟨w, slash, by simp, by simpa using h⟩
  | .innerDirs => by
    -- a slash, or all from a slash up to another one
    rw [advance, Reach.mem_places_union (by simp)]
    simp only [Reach.mem_places_overUpTo, Reach.mem_places_overOne]
    constructor
    · rintro (⟨b, hb, h⟩ | ⟨u, c, hc, b, hb, h⟩)
      · obtain rfl : b = slash := by simpa using hb
        exact ⟨[slash], .inl rfl, h⟩
      · obtain rfl : b = slash := by simpa using hb
        obtain rfl : c = slash := by simpa using hc
        exact ⟨slash :: u ++ [slash], .inr ⟨u, rfl⟩, by simpa using h⟩
    · rintro ⟨u, rfl | ⟨w, rfl⟩, h⟩
      · exact .inl ⟨slash, by simp, h⟩
      · exact .inr ⟨w, slash, by simp, slash, by simp, by simpa using h⟩
  | .belowDir => by
    -- a slash and anything
    simp only [advance, Reach.mem_places_overMany, Reach.mem_places_overOne]
    constructor
    · rintro ⟨u, -, b, hb, h⟩
      obtain rfl : b = slash := by simpa using hb
      exact ⟨slash :: u, ⟨u, rfl⟩, h⟩
    · rintro ⟨_, ⟨w, rfl⟩, h⟩
      exact ⟨w, by simp, slash, by simp, h⟩
  | .oneOf .. => mem_places_overOne_iff
  | .alternatives branches => by
    rw [advance]
    simp only [Takes]
    split
    · simp
    · exact mem_places_advanceAny r s branches

theorem mem_places_advanceAll (r : Reach) (s : List UInt8) :
    (ts : List Token) → (s ∈ (advanceAll r ts).places ↔ ∃ u, TakesAll u ts ∧ u ++ s ∈ r.places)
  | [] => by simp [advanceAll, TakesAll]
  | t :: ts => by
    rw [advanceAll]
    split
    · -- no position is left, and none is reached
      rename_i nowhere
      have none := (Reach.isNowhere_iff r).1 nowhere
      exact iff_of_false (none s) fun ⟨_, _, h⟩ => none _ h
    · rw [mem_places_advanceAll _ s ts]
      constructor
      · rintro ⟨w, hw, h⟩
        obtain ⟨v, hv, h⟩ := (mem_places_advance r (w ++ s) t).1 h
        exact ⟨v ++ w, ⟨v, w, rfl, hv, hw⟩, by rwa [List.append_assoc]⟩
      · rintro ⟨_, ⟨v, w, rfl, hv, hw⟩, h⟩
        rw [List.append_assoc] at h
        exact ⟨w, hw, (mem_places_advance r (w ++ s) t).2 ⟨v, hv, h⟩⟩

theorem mem_places_advanceAny (r : Reach) (s : List UInt8) :
    (bs : List (List Token)) →
      (s ∈ (advanceAny r bs).places ↔ ∃ u, TakesAny u bs ∧ u ++ s ∈ r.places)
  | [] => iff_of_false (Reach.not_mem_places_clear r s) fun ⟨_, h, _⟩ => h
  | b :: bs => by
    rw [advanceAny]
    split
    · rename_i void
      rw [mem_places_advanceAny r s bs]
      simp [TakesAny, void]
    · rename_i solid
      rw [Reach.mem_places_union (by rw [bytes_advanceAll, bytes_advanceAny]),
        mem_places_advanceAll r s b, mem_places_advanceAny r s bs, ← exists_or]
      refine exists_congr fun u => ?_
      rw [TakesAny, ← or_and_right, Bool.eq_false_iff.2 solid]
      simp

end

/-- The tokens lead from the start of some bytes to their end if they stand for them. -/
theorem reachesEnd_advanceAll {bs : List UInt8} {ts : List Token} :
    (advanceAll (.ofBytes true bs) ts).reachesEnd = true ↔ TakesAll bs ts := by
  rw [Reach.reachesEnd_iff, mem_places_advanceAll]
  constructor
  · rintro ⟨u, hu, h⟩
    obtain ⟨-, eq⟩ := Reach.mem_places_ofBytes.1 h
    rw [List.append_nil] at eq
    exact eq ▸ hu
  · intro h
    exact ⟨bs, h, Reach.mem_places_ofBytes.2 ⟨rfl, List.append_nil bs⟩⟩

end Token

/-- A glob matches a text if its tokens stand for the bytes of the text. -/
theorem accepts_iff {g : Glob} {t : Text} :
    g.accepts t = true ↔ g.tokens = [.leadingDirs] ∨ Token.TakesAll t.bytes g.tokens := by
  rw [accepts]
  split
  · rename_i alone
    simp [alone]
  · rename_i others
    rw [Token.reachesEnd_advanceAll]
    exact (or_iff_right others).symm

end TierLint.Glob
