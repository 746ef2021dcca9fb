import TierLint.Proofs.Glob.Segments
import TierLint.Proofs.Text.Bytes

/-!
# Matching segment by segment

An alignment of a pattern with a path assigns the segments of the path to those of the pattern, in
order: any number of them to a double star, and to any other segment one that it matches
(`Aligned`). If no class of a pattern takes a slash, the pattern matches no path without an
alignment (`aligned_of_accepts`).
-/

set_option autoImplicit false

namespace TierLint.Glob

/-- The segments of a path can be assigned to the segments of a pattern, each to one that `may` take
it. An empty segment of a pattern need not take any: what follows the slash of leading directories
can be nothing. -/
inductive Aligned (may : Text → Text → Prop) : List Text → List Text → Prop
  | nil : Aligned may [] []
  | blank {ps xs : List Text} : Aligned may ps xs → Aligned may ([] :: ps) xs
  | one {p x : Text} {ps xs : List Text} {g : Glob} :
      p ≠ directories → parse p = .ok g → g.accepts x = true → may p x →
      Aligned may ps xs → Aligned may (p :: ps) (x :: xs)
  | directories {ps xs : List Text} (taken : List Text) :
      (∀ x ∈ taken, may Glob.directories x) →
      Aligned may ps xs → Aligned may (Glob.directories :: ps) (taken ++ xs)

/-- Any segment may be taken by any. -/
def Anywhere (_ _ : Text) : Prop := True

/-- A double star takes what stands in front of the rest, -/
theorem Aligned.skip {ps xs : List Text} (h : Aligned Anywhere ps xs) (taken : List Text) :
    Aligned Anywhere (Glob.directories :: ps) (taken ++ xs) := by
  apply Aligned.directories taken
  · intro x _
    trivial
  · exact h

/-- and at the end of a pattern all that is left. -/
theorem Aligned.all (xs : List Text) : Aligned Anywhere [Glob.directories] xs := by
  have whole := Aligned.skip .nil xs
  rwa [List.append_nil] at whole

/-- The token is a class that takes a slash. -/
def Token.isSlashClass : Token → Bool
  | .oneOf negated ranges => classHolds ranges slash != negated
  | _ => false

/-- No class of the glob takes a slash. -/
def ClassesInSegment (g : Glob) : Prop := g.tokens.any Token.isSlashClass = false

/-! ## Tokens of a segment -/

/-- The tokens that a segment can have. -/
inductive Token.InSegment : Token → Prop
  | literal {c : Char} : c ≠ '/' → InSegment (.literal c)
  | one : InSegment .one
  | many : InSegment .many
  | oneOf (negated : Bool) (ranges : List (Char × Char)) : InSegment (.oneOf negated ranges)

theorem inSegment_of_readClass {t after : Text} {token : Token}
    (h : readClass t = .ok (token, after)) : token.InSegment := by
  rw [readClass] at h
  obtain ⟨⟨ranges, rest⟩, -, eq⟩ := exists_of_map_eq_ok h
  cases eq
  exact .oneOf _ ranges

/-- The tokens of a segment are such tokens; none of them is a slash, since the segment has none. -/
theorem inSegment_of_segmentTokens {s : Text} (flat : Flat s) {ts : List Token}
    (h : segmentTokens s = .ok ts) : ∀ t ∈ ts, t.InSegment := by
  fun_induction segmentTokens s generalizing ts with
  | case1 =>
    cases h
    simp
  | case2 t ih =>
    -- a question mark
    obtain ⟨us, hus, rfl⟩ := exists_of_map_eq_ok h
    exact List.forall_mem_cons.2 ⟨.one, ih (flat.of_suffix (List.suffix_cons _ _)) hus⟩
  | case3 t ih =>
    -- two stars inside a segment
    obtain ⟨us, hus, rfl⟩ := exists_of_map_eq_ok h
    have later := ih (flat.of_suffix ((List.suffix_cons _ _).trans (List.suffix_cons _ _))) hus
    exact List.forall_mem_cons.2 ⟨.many, List.forall_mem_cons.2 ⟨.many, later⟩⟩
  | case4 t _ ih =>
    -- one star
    obtain ⟨us, hus, rfl⟩ := exists_of_map_eq_ok h
    exact List.forall_mem_cons.2 ⟨.many, ih (flat.of_suffix (List.suffix_cons _ _)) hus⟩
  | case5 t token after hc ih =>
    -- a class
    obtain ⟨us, hus, rfl⟩ := exists_of_map_eq_ok h
    have suffix := (readClass_append hc []).2.trans (List.suffix_cons '[' t)
    exact List.forall_mem_cons.2 ⟨inSegment_of_readClass hc, ih (flat.of_suffix suffix) hus⟩
  | case6 => cases h
  | case7 => cases h
  | case8 c t ih =>
    -- a character behind a backslash
    obtain ⟨us, hus, rfl⟩ := exists_of_map_eq_ok h
    have later := ih (flat.of_suffix ((List.suffix_cons _ _).trans (List.suffix_cons _ _))) hus
    exact List.forall_mem_cons.2 ⟨.literal fun eq => flat.slash (by simp [eq]), later⟩
  | case9 c t _ _ _ _ _ _ ih =>
    -- any other character
    obtain ⟨us, hus, rfl⟩ := exists_of_map_eq_ok h
    have later := ih (flat.of_suffix (List.suffix_cons _ _)) hus
    exact List.forall_mem_cons.2 ⟨.literal fun eq => flat.slash (by simp [eq]), later⟩

/-- Only the empty segment has no tokens. -/
theorem eq_nil_of_segmentTokens {s : Text} (h : segmentTokens s = .ok []) : s = [] := by
  fun_induction segmentTokens s with
  | case1 => rfl
  | case6 | case7 => cases h
  | _ =>
    obtain ⟨us, -, eq⟩ := exists_of_map_eq_ok h
    cases eq

/-- In front of the letters, bytes are not folded together. -/
theorem eq_of_foldByte_eq {b k : UInt8} (hk : k.toNat < 0x41) (h : foldByte b = k) : b = k := by
  rw [foldByte] at h
  split at h
  · rename_i capital
    have bounds : 0x41 ≤ b.toNat ∧ b.toNat ≤ 0x5A := by
      simpa [UInt8.le_iff_toNat_le] using capital
    have code := congrArg UInt8.toNat h
    rw [UInt8.toNat_add] at code
    simp at code
    omega
  · exact h

/-- A literal in front of the letters stands for its byte. -/
theorem eq_singleton_of_takes {c : Char} (hc : c.toNat < 0x41) {u : List UInt8}
    (h : Token.Takes u (.literal c)) : u = [UInt8.ofNat c.toNat] := by
  have code : (UInt8.ofNat c.toNat).toNat = c.toNat := by
    rw [UInt8.toNat_ofNat', Nat.mod_eq_of_lt (by omega)]
  have folded : foldByte (UInt8.ofNat c.toNat) = UInt8.ofNat c.toNat := by
    rw [foldByte, if_neg]
    intro capital
    have bounds : 0x41 ≤ (UInt8.ofNat c.toNat).toNat ∧ (UInt8.ofNat c.toNat).toNat ≤ 0x5A := by
      simpa [UInt8.le_iff_toNat_le] using capital
    omega
  rw [Token.Takes, Text.utf8EncodeChar_of_lt (by omega), List.map_singleton, folded] at h
  cases u with
  | nil => cases h
  | cons b u =>
    obtain ⟨first, others⟩ := List.cons.inj h
    rw [eq_of_foldByte_eq (by omega) first, List.map_eq_nil_iff.1 others]

/-- Bytes that a segment's token stands for are no slashes. -/
theorem slash_not_mem_of_takes {t : Token} (inside : t.InSegment) (apart : t.isSlashClass = false)
    {u : List UInt8} (h : t.Takes u) : slash ∉ u := by
  cases inside with
  | @literal c hc =>
    intro mem
    have folded : foldByte slash ∈ (String.utf8EncodeChar c).map foldByte :=
      h ▸ List.mem_map_of_mem mem
    obtain ⟨b, hb, eq⟩ := List.mem_map.1 folded
    obtain rfl := eq_of_foldByte_eq (by decide) eq
    have code := (Text.utf8EncodeChar_of_mem_lt hb (by decide)).2
    exact hc (Char.toNat_inj.1 code)
  | one =>
    obtain ⟨b, hb, rfl⟩ := h
    intro mem
    rw [List.mem_singleton.1 mem] at hb
    exact absurd hb (by simp)
  | many =>
    intro mem
    exact absurd (h slash mem) (by simp)
  | oneOf negated ranges =>
    obtain ⟨b, hb, rfl⟩ := h
    intro mem
    rw [← List.mem_singleton.1 mem] at hb
    exact Bool.false_ne_true (apart.symm.trans hb)

/-- So are those that all its tokens stand for. -/
theorem slash_not_mem_of_takesAll {ts : List Token} (inside : ∀ t ∈ ts, t.InSegment)
    (apart : ts.any Token.isSlashClass = false) {u : List UInt8} (h : Token.TakesAll u ts) :
    slash ∉ u := by
  induction ts generalizing u with
  | nil =>
    obtain rfl : u = [] := h
    exact List.not_mem_nil
  | cons t ts ih =>
    obtain ⟨v, w, rfl, hv, hw⟩ := h
    rw [List.any_cons, Bool.or_eq_false_iff] at apart
    have first := slash_not_mem_of_takes (inside t List.mem_cons_self) apart.1 hv
    have others := ih (fun t ht => inside t (List.mem_cons_of_mem _ ht)) apart.2 hw
    intro mem
    rcases List.mem_append.1 mem with mem | mem
    · exact first mem
    · exact others mem

/-! ## Gaps -/

/-- The double star that a gap has taken. -/
def Gap.taken : Gap → List Text
  | start | slash => []
  | leading | inner => [directories]

/-- The rest of a path behind a gap can be aligned; if the gap is not at the beginning of the
pattern, a slash leads to the rest. -/
def AlignedBehind (gap : Gap) (ps : List Text) (t : Text) : Prop :=
  match gap.isFirst with
  | true => Aligned Anywhere (gap.taken ++ ps) (Text.splitOn '/' t)
  | false => ∃ r, t = '/' :: r ∧ Aligned Anywhere (gap.taken ++ ps) (Text.splitOn '/' r)

/-- Behind other segments, what is left of a pattern begins with a slash. -/
theorem head_tokensFrom {gap : Gap} (later : gap.isFirst = false) {ss : List Segment}
    (ne : ss ≠ []) :
    ∃ k ts, tokensFrom gap ss = k :: ts ∧
      (k = .literal '/' ∨ k = .innerDirs ∨ k = .belowDir) := by
  induction ss generalizing gap with
  | nil => exact absurd rfl ne
  | cons s ss ih =>
    have tokens : gap.tokens = [.literal '/'] ∨ gap.tokens = [.innerDirs] := by
      cases gap <;> simp_all [Gap.isFirst, Gap.tokens]
    have toEnd : gap.toEnd = .belowDir := by
      cases gap <;> simp_all [Gap.isFirst, Gap.toEnd]
    -- a double star widens the gap, and any other segment stands behind the gap's token
    cases s with
    | directories =>
      cases ss with
      | nil => exact ⟨_, [], rfl, .inr (.inr toEnd)⟩
      | cons s' ss =>
        rw [tokensFrom_directories]
        exact ih (by rwa [isFirst_across]) (by simp)
    | plain ts =>
      cases ss with
      | nil =>
        rcases tokens with eq | eq
        · exact ⟨_, ts, by rw [tokensFrom, eq]; rfl, .inl rfl⟩
        · exact ⟨_, ts, by rw [tokensFrom, eq]; rfl, .inr (.inl rfl)⟩
      | cons s' ss =>
        rcases tokens with eq | eq
        · exact ⟨_, _, by rw [tokensFrom_plain, eq]; rfl, .inl rfl⟩
        · exact ⟨_, _, by rw [tokensFrom_plain, eq]; rfl, .inr (.inl rfl)⟩

/-! Bytes up to a slash are those of the text up to it. -/

theorem bytes_eq_append_slash {t : Text} {u w : List UInt8} (h : t.bytes = u ++ slash :: w) :
    ∃ a r : Text, t = a ++ '/' :: r ∧ a.bytes = u ∧ r.bytes = w := by
  obtain ⟨a, c, r, rfl, ha, hr, code⟩ := Text.cut_of_bytes (by decide) h
  obtain rfl : c = '/' := Char.toNat_inj.1 code
  exact ⟨a, r, rfl, ha, hr⟩

theorem eq_nil_of_bytes {t : Text} (h : t.bytes = []) : t = [] := by
  cases t with
  | nil => rfl
  | cons c t =>
    rw [Text.bytes_cons] at h
    exact absurd (List.append_eq_nil_iff.1 h).1 String.utf8EncodeChar_ne_nil

theorem bytes_eq_slash_cons {t : Text} {w : List UInt8} (h : t.bytes = slash :: w) :
    ∃ r : Text, t = '/' :: r ∧ r.bytes = w := by
  obtain ⟨a, r, rfl, ha, hr⟩ := bytes_eq_append_slash (by rwa [List.nil_append])
  rw [eq_nil_of_bytes ha]
  exact ⟨r, rfl, hr⟩

theorem slash_not_mem_text {t : Text} (h : slash ∉ t.bytes) : '/' ∉ t := by
  intro mem
  exact h (List.mem_flatMap.2 ⟨'/', mem, by decide⟩)

/-- Tokens that follow other segments stand for bytes that begin with a slash. -/
theorem exists_slash_of_takesAll {gap : Gap} (later : gap.isFirst = false) {ss : List Segment}
    (ne : ss ≠ []) {u : List UInt8} (h : Token.TakesAll u (tokensFrom gap ss)) :
    ∃ w, u = slash :: w := by
  obtain ⟨k, ts, eq, kind⟩ := head_tokensFrom later ne
  rw [eq] at h
  obtain ⟨v, w, rfl, hv, -⟩ := h
  rcases kind with rfl | rfl | rfl
  · rw [eq_singleton_of_takes (by decide) hv]
    exact ⟨w, rfl⟩
  · rcases hv with rfl | ⟨x, rfl⟩
    · exact ⟨w, rfl⟩
    · exact ⟨x ++ [slash] ++ w, by simp⟩
  · obtain ⟨x, rfl⟩ := hv
    exact ⟨x ++ w, rfl⟩

/-- A gap leads to the rest of a path behind what its token stands for. -/
theorem alignedBehind_of_takesAll {gap : Gap} {more : List Token} {ps : List Text} {t : Text}
    (h : Token.TakesAll t.bytes (gap.tokens ++ more))
    (rest : ∀ r : Text, Token.TakesAll r.bytes more →
      Aligned Anywhere ps (Text.splitOn '/' r)) : AlignedBehind gap ps t := by
  have skip : ∀ a r : Text, Token.TakesAll r.bytes more →
      Aligned Anywhere (directories :: ps) (Text.splitOn '/' (a ++ '/' :: r)) := by
    intro a r hr
    rw [Text.splitOn_eq, List.splitOn_append_cons_self, ← Text.splitOn_eq, ← Text.splitOn_eq]
    exact (rest r hr).skip _
  have none : ∀ r : Text, Token.TakesAll r.bytes more →
      Aligned Anywhere (directories :: ps) (Text.splitOn '/' r) := by
    intro r hr
    exact (rest r hr).skip []
  cases gap with
  | start => exact rest t h
  | slash =>
    obtain ⟨v, w, eq, hv, hw⟩ := h
    rw [eq_singleton_of_takes (by decide) hv] at eq
    obtain ⟨r, rfl, rfl⟩ := bytes_eq_slash_cons eq
    exact ⟨r, rfl, rest r hw⟩
  | leading =>
    obtain ⟨v, w, eq, hv, hw⟩ := h
    rcases hv with rfl | ⟨x, rfl⟩
    · -- no directories at all
      exact none t (by rw [eq]; exact hw)
    · -- directories up to some slash
      rw [List.append_assoc] at eq
      obtain ⟨a, r, rfl, -, rfl⟩ := bytes_eq_append_slash eq
      exact skip a r hw
  | inner =>
    obtain ⟨v, w, eq, hv, hw⟩ := h
    rcases hv with rfl | ⟨x, rfl⟩
    · -- one slash
      obtain ⟨r, rfl, rfl⟩ := bytes_eq_slash_cons eq
      exact ⟨r, rfl, none r hw⟩
    · -- directories between two slashes
      rw [List.cons_append, List.cons_append, List.append_assoc] at eq
      obtain ⟨_, rfl, behind⟩ := bytes_eq_slash_cons eq
      obtain ⟨a, r, rfl, -, rfl⟩ := bytes_eq_append_slash behind
      exact ⟨_, rfl, skip a r hw⟩

/-! ## Whole patterns -/

theorem aligned_directories {ps : List Text} (h : ∀ xs, Aligned Anywhere ps xs) (gap : Gap)
    (xs : List Text) : Aligned Anywhere (gap.taken ++ ps) xs := by
  cases gap with
  | start | slash => exact h xs
  | leading | inner => exact (h xs).skip []

/-- If leading directories alone are left of a pattern, it can be aligned with anything. -/
theorem aligned_of_leadingDirs {ps : List Text} {ss : List Segment}
    (h : List.Forall₂ Reads ps ss) (flat : ∀ p ∈ ps, Flat p) (ne : ps ≠ []) {gap : Gap}
    (alone : tokensFrom gap ss = [.leadingDirs]) (xs : List Text) :
    gap.isFirst = true ∧ Aligned Anywhere (gap.taken ++ ps) xs := by
  induction h generalizing gap xs with
  | nil => exact absurd rfl ne
  | @cons p s ps ss hp hps ih =>
    have flat' : ∀ q ∈ ps, Flat q := fun q hq => flat q (List.mem_cons_of_mem _ hq)
    cases hp with
    | directories =>
      cases hps with
      | nil =>
        have first : gap.isFirst = true := by
          cases gap <;> simp_all [tokensFrom, Gap.toEnd, Gap.isFirst]
        exact ⟨first, aligned_directories Aligned.all gap xs⟩
      | @cons q s' qs ss' hq hqs =>
        rw [tokensFrom_directories] at alone
        have later := fun xs => ih flat' (by simp) alone xs
        have taken : gap.across.taken = [directories] := by cases gap <;> rfl
        rw [isFirst_across, taken] at later
        exact ⟨(later xs).1, aligned_directories (fun xs => (later xs).2) gap xs⟩
    | @plain _ ts plain hts =>
      have inside := inSegment_of_segmentTokens (flat p List.mem_cons_self) hts
      cases hps with
      | nil =>
        rw [tokensFrom] at alone
        cases gap with
        | start =>
          have only : ts = [.leadingDirs] := alone
          rw [only] at inside
          cases inside _ List.mem_cons_self
        | slash | inner => simp [Gap.tokens] at alone
        | leading =>
          obtain rfl : ts = [] := by simpa [Gap.tokens] using alone
          obtain rfl := eq_nil_of_segmentTokens hts
          have whole := Aligned.skip (.blank .nil) xs
          rw [List.append_nil] at whole
          exact ⟨rfl, whole⟩
      | @cons q s' qs ss' hq hqs =>
        -- the rest of the pattern begins with a token for a slash
        obtain ⟨k, more, eq, kind⟩ :=
          head_tokensFrom (rfl : Gap.slash.isFirst = false) (List.cons_ne_nil s' ss')
        rw [tokensFrom_plain, eq] at alone
        have mem : k ∈ [Token.leadingDirs] := alone ▸ by simp
        rw [List.mem_singleton.1 mem] at kind
        simp at kind

/-- What the tokens of a segment stand for is a segment of a path, and aligned with it. -/
theorem segment_of_takesAll {p : Text} {ts : List Token} (flat : Flat p) (plain : p ≠ directories)
    (hts : segmentTokens p = .ok ts) (classes : ∀ g, parse p = .ok g → ClassesInSegment g)
    {x : Text} (h : Token.TakesAll x.bytes ts) :
    '/' ∉ x ∧
      ∀ {ps xs : List Text}, Aligned Anywhere ps xs → Aligned Anywhere (p :: ps) (x :: xs) := by
  have read : parse p = .ok ⟨ts⟩ := by
    rw [parse_segment flat plain, hts]
    rfl
  constructor
  · apply slash_not_mem_text
    exact slash_not_mem_of_takesAll (inSegment_of_segmentTokens flat hts) (classes _ read) h
  · intro ps xs hxs
    exact .one plain read (accepts_iff.2 (.inr h)) trivial hxs

/-- What is left of a path behind a gap can be aligned if the tokens for the gap and the segments
stand for it. -/
theorem alignedBehind_of_tokensFrom {ps : List Text} {ss : List Segment}
    (h : List.Forall₂ Reads ps ss) (flat : ∀ p ∈ ps, Flat p)
    (classes : ∀ p ∈ ps, ∀ g, parse p = .ok g → ClassesInSegment g) (ne : ps ≠ []) {gap : Gap}
    {t : Text} (ht : Token.TakesAll t.bytes (tokensFrom gap ss)) : AlignedBehind gap ps t := by
  induction h generalizing gap t with
  | nil => exact absurd rfl ne
  | @cons p s ps ss hp hps ih =>
    have flat' : ∀ q ∈ ps, Flat q := fun q hq => flat q (List.mem_cons_of_mem _ hq)
    have classes' : ∀ q ∈ ps, ∀ g, parse q = .ok g → ClassesInSegment g :=
      fun q hq => classes q (List.mem_cons_of_mem _ hq)
    cases hp with
    | directories =>
      cases hps with
      | nil =>
        -- at the end of the pattern, a double star takes what is left of the path
        cases gap with
        | start | leading => exact aligned_directories Aligned.all _ _
        | slash | inner =>
          obtain ⟨_, w, eq, ⟨v, rfl⟩, -⟩ := ht
          obtain ⟨r, rfl, -⟩ := bytes_eq_slash_cons eq
          exact ⟨r, rfl, aligned_directories Aligned.all _ _⟩
      | @cons q s' qs ss' hq hqs =>
        -- a double star behind another one takes nothing
        rw [tokensFrom_directories] at ht
        have later := ih flat' classes' (by simp) ht
        cases gap with
        | start | slash => exact later
        | leading => exact Aligned.skip later []
        | inner =>
          obtain ⟨r, rfl, aligned⟩ := later
          exact ⟨r, rfl, aligned.skip []⟩
    | @plain _ ts plain hts =>
      have segment : ∀ {x : Text}, Token.TakesAll x.bytes ts → '/' ∉ x ∧
          ∀ {ps xs : List Text}, Aligned Anywhere ps xs → Aligned Anywhere (p :: ps) (x :: xs) :=
        segment_of_takesAll (flat p List.mem_cons_self) plain hts (classes p List.mem_cons_self)
      cases hps with
      | nil =>
        -- the last segment takes what is left, which has no slash
        rw [tokensFrom] at ht
        apply alignedBehind_of_takesAll ht
        intro r hr
        obtain ⟨noSlash, one⟩ := segment hr
        rw [Text.splitOn_eq, List.splitOn_eq_singleton noSlash]
        exact one .nil
      | @cons q s' qs ss' hq hqs =>
        -- the tokens behind the segment begin at the next slash, and the segment takes no slash
        rw [tokensFrom_plain, List.append_assoc] at ht
        apply alignedBehind_of_takesAll ht
        intro r hr
        obtain ⟨u, v, eq, hu, hv⟩ := Token.takesAll_append.1 hr
        obtain ⟨w, rfl⟩ := exists_slash_of_takesAll (rfl : Gap.slash.isFirst = false)
          (List.cons_ne_nil s' ss') hv
        obtain ⟨a, b, rfl, rfl, rfl⟩ := bytes_eq_append_slash eq
        obtain ⟨noSlash, one⟩ := segment hu
        have behind : Token.TakesAll (Text.bytes ('/' :: b)) (tokensFrom .slash (s' :: ss')) := hv
        obtain ⟨b', same, aligned⟩ := ih flat' classes' (by simp) behind
        obtain rfl := (List.cons.inj same).2
        rw [Text.splitOn_eq, List.splitOn_append_cons_self_of_not_mem noSlash, ← Text.splitOn_eq]
        exact one aligned

/-- The segments of a pattern that are globs by themselves, and what they are read as. -/
theorem exists_reads {ps : List Text} (flat : ∀ p ∈ ps, Flat p)
    (globs : ps.all (fun p => (parse p).isOk) = true) : ∃ ss, List.Forall₂ Reads ps ss := by
  induction ps with
  | nil => exact ⟨[], .nil⟩
  | cons p ps ih =>
    rw [List.all_cons, Bool.and_eq_true] at globs
    obtain ⟨ss, hss⟩ := ih (fun q hq => flat q (List.mem_cons_of_mem _ hq)) globs.2
    by_cases double : p = directories
    · rw [double]
      exact ⟨.directories :: ss, .cons .directories hss⟩
    · have ok := globs.1
      rw [parse_segment (flat p List.mem_cons_self) double] at ok
      cases read : segmentTokens p with
      | error e =>
        rw [read] at ok
        cases ok
      | ok ts => exact ⟨.plain ts :: ss, .cons (.plain double read) hss⟩

/-- A pattern without braces, of segments that are globs by themselves. -/
structure Segmented (pattern : Text) : Prop where
  opening : '{' ∉ pattern
  closing : '}' ∉ pattern
  globs : (Text.splitOn '/' pattern).all (fun p => (parse p).isOk) = true

theorem Segmented.flat {pattern : Text} (h : Segmented pattern) :
    ∀ p ∈ Text.splitOn '/' pattern, Flat p := by
  intro p hp
  exact ⟨Text.not_mem_of_mem_splitOn hp, fun mem => h.opening (Text.mem_of_mem_splitOn hp mem),
    fun mem => h.closing (Text.mem_of_mem_splitOn hp mem)⟩

/-- A pattern matches no path that its segments cannot be aligned with, unless a class of it takes
a slash. -/
theorem aligned_of_accepts {pattern : Text} (h : Segmented pattern)
    (classes : ∀ p ∈ Text.splitOn '/' pattern, ∀ g, parse p = .ok g → ClassesInSegment g)
    {g : Glob} (hg : parse pattern = .ok g) {path : Text} (accepted : g.accepts path = true) :
    Aligned Anywhere (Text.splitOn '/' pattern) (Text.splitOn '/' path) := by
  have ne : Text.splitOn '/' pattern ≠ [] := by
    rw [Text.splitOn_eq]
    exact List.splitOn_ne_nil '/' pattern
  obtain ⟨ss, hss⟩ := exists_reads h.flat h.globs
  have tokens : g = ⟨tokensFrom .start ss⟩ := by
    have read := parse_segments hss h.flat ne
    rw [Text.intercalate_splitOn, hg] at read
    cases read
    rfl
  rw [tokens] at accepted
  rcases accepts_iff.1 accepted with alone | takes
  · exact (aligned_of_leadingDirs hss h.flat ne alone _).2
  · exact alignedBehind_of_tokensFrom hss h.flat classes ne takes

end TierLint.Glob
