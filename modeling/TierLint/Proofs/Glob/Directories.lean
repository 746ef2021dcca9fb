import TierLint.Path
import TierLint.Proofs.Glob.Alignment
import TierLint.Proofs.Glob.Case

/-!
# Files below a directory

Three forms of patterns are common: a file name, a file name in any directory (`**/file`), and a
file name anywhere below a directory (`dir/**/file`), where either name may have wildcards of its
own. A path matches the first if it is a name that matches, the second if its last name does
(`accepts_anywhere_iff`), and the third if its first name matches the directory and its last the
file (`accepts_below_iff`). A name without wildcards matches names that differ from it only in the
case of letters (`takesAll_name_iff`), and a star with an ending matches names with the ending
(`takesAll_ending_iff`).
-/

set_option autoImplicit false

namespace TierLint.Glob

open Token

/-- The text is a segment that is read as these tokens, and stands for segments. -/
structure IsSegment (s : Text) (ts : List Token) : Prop where
  flat : Flat s
  plain : s ≠ directories
  reads : segmentTokens s = .ok ts
  apart : ts.any isSlashClass = false

namespace IsSegment

variable {s : Text} {ts : List Token}

theorem inSegment (h : IsSegment s ts) : ∀ t ∈ ts, t.InSegment :=
  inSegment_of_segmentTokens h.flat h.reads

theorem slash_not_mem (h : IsSegment s ts) {u : List UInt8} (takes : TakesAll u ts) : slash ∉ u :=
  slash_not_mem_of_takesAll h.inSegment h.apart takes

/-- The tokens are not those that match everything. -/
theorem ne_leadingDirs (h : IsSegment s ts) : ts ≠ [.leadingDirs] := by
  intro eq
  have inside := h.inSegment .leadingDirs (by simp [eq])
  cases inside

end IsSegment

/-! ## Reading the patterns -/

theorem flat_directories : Flat directories := ⟨by decide, by decide, by decide⟩

section Forms

variable {dir file : Text} {ds ts : List Token}

theorem parse_alone (h : IsSegment file ts) : parse file = .ok ⟨ts⟩ := by
  rw [parse_segment h.flat h.plain, h.reads]
  rfl

theorem parse_anywhere (h : IsSegment file ts) :
    parse (Path.joinSteps [directories, file]) = .ok ⟨.leadingDirs :: ts⟩ := by
  apply parse_segments (.cons .directories (.cons (.plain h.plain h.reads) .nil))
  · rintro p (_ | ⟨_, _ | ⟨_, impossible⟩⟩)
    · exact flat_directories
    · exact h.flat
    · cases impossible
  · exact List.cons_ne_nil _ _

theorem parse_below (hd : IsSegment dir ds) (hf : IsSegment file ts) :
    parse (Path.joinSteps [dir, directories, file]) = .ok ⟨ds ++ .innerDirs :: ts⟩ := by
  apply parse_segments (.cons (.plain hd.plain hd.reads)
    (.cons .directories (.cons (.plain hf.plain hf.reads) .nil)))
  · rintro p (_ | ⟨_, _ | ⟨_, _ | ⟨_, impossible⟩⟩⟩)
    · exact hd.flat
    · exact flat_directories
    · exact hf.flat
    · cases impossible
  · exact List.cons_ne_nil _ _

end Forms

/-! ## What they stand for -/

section Matches

variable {dir file : Text} {ds ts : List Token} {t : Text}

/-- The tokens of a segment stand for the bytes of single names. -/
theorem IsSegment.takesAll_iff (h : IsSegment file ts) :
    TakesAll t.bytes ts ↔ ∃ n, Text.splitOn '/' t = [n] ∧ TakesAll n.bytes ts := by
  constructor
  · intro takes
    have alone := slash_not_mem_text (h.slash_not_mem takes)
    exact ⟨t, Text.splitOn_eq_singleton_iff.2 ⟨rfl, alone⟩, takes⟩
  · rintro ⟨n, only, takes⟩
    obtain ⟨rfl, -⟩ := Text.splitOn_eq_singleton_iff.1 only
    exact takes

/-- Behind any directories, they stand for the last name. -/
theorem IsSegment.takesAll_leadingDirs_iff (h : IsSegment file ts) :
    TakesAll t.bytes (.leadingDirs :: ts) ↔
      ∃ dirs n, Text.splitOn '/' t = dirs ++ [n] ∧ TakesAll n.bytes ts := by
  constructor
  · rintro ⟨v, w, eq, rfl | ⟨u, rfl⟩, takes⟩
    · -- no directories
      rw [List.nil_append] at eq
      rw [← eq, h.takesAll_iff] at takes
      obtain ⟨n, only, takes⟩ := takes
      exact ⟨[], n, only, takes⟩
    · -- what stands behind the last slash has none
      rw [List.append_assoc] at eq
      obtain ⟨a, n, rfl, -, rfl⟩ := bytes_eq_append_slash eq
      have alone := slash_not_mem_text (h.slash_not_mem takes)
      refine ⟨Text.splitOn '/' a, n, ?_, takes⟩
      rw [Text.splitOn_append_cons, Text.splitOn_eq_singleton_iff.2 ⟨rfl, alone⟩]
  · rintro ⟨dirs, n, pieces, takes⟩
    cases dirs with
    | nil =>
      obtain ⟨rfl, -⟩ := Text.splitOn_eq_singleton_iff.1 pieces
      exact ⟨[], t.bytes, rfl, .inl rfl, takes⟩
    | cons d dirs =>
      obtain ⟨a, b, rfl, -, last⟩ :=
        Text.cut_of_splitOn (List.cons_ne_nil d dirs) (List.cons_ne_nil n []) pieces
      obtain ⟨rfl, -⟩ := Text.splitOn_eq_singleton_iff.1 last
      refine ⟨Text.bytes a ++ [slash], Text.bytes b, ?_, .inr ⟨_, rfl⟩, takes⟩
      rw [Text.bytes_append, Text.bytes_cons, List.append_assoc]
      rfl

/-- Anywhere below a directory, the tokens for the directory stand for the first name, and those for
the file for the last. -/
theorem IsSegment.takesAll_innerDirs_iff (hd : IsSegment dir ds) (hf : IsSegment file ts) :
    TakesAll t.bytes (ds ++ .innerDirs :: ts) ↔
      ∃ d dirs n, Text.splitOn '/' t = d :: dirs ++ [n] ∧
        TakesAll d.bytes ds ∧ TakesAll n.bytes ts := by
  constructor
  · intro takes
    obtain ⟨v, w, eq, first, x, y, rfl, inner, rest⟩ := takesAll_append.1 takes
    obtain ⟨x, leading, rfl⟩ := takes_innerDirs_iff.1 inner
    obtain ⟨d, r, rfl, rfl, behind⟩ := bytes_eq_append_slash eq
    have alone := slash_not_mem_text (hd.slash_not_mem first)
    obtain ⟨dirs, n, pieces, last⟩ :=
      hf.takesAll_leadingDirs_iff.1 ⟨x, y, behind, leading, rest⟩
    refine ⟨d, dirs, n, ?_, first, last⟩
    rw [Text.splitOn_append_cons, Text.splitOn_eq_singleton_iff.2 ⟨rfl, alone⟩, pieces]
    rfl
  · rintro ⟨d, dirs, n, pieces, first, last⟩
    have some : dirs ++ [n] ≠ [] := by simp
    obtain ⟨a, r, rfl, front, rest⟩ := Text.cut_of_splitOn (List.cons_ne_nil d []) some pieces
    obtain ⟨rfl, -⟩ := Text.splitOn_eq_singleton_iff.1 front
    obtain ⟨x, y, behind, leading, takes⟩ := hf.takesAll_leadingDirs_iff.2 ⟨dirs, n, rest, last⟩
    rw [takesAll_append]
    refine ⟨Text.bytes a, slash :: Text.bytes r, ?_, first, slash :: x, y, ?_, ?_, takes⟩
    · rw [Text.bytes_append, Text.bytes_cons]
      rfl
    · rw [behind]
      rfl
    · exact takes_innerDirs_iff.2 ⟨x, leading, rfl⟩

theorem accepts_alone_iff (h : IsSegment file ts) :
    (Glob.mk ts).accepts t = true ↔ ∃ n, Text.splitOn '/' t = [n] ∧ TakesAll n.bytes ts := by
  rw [accepts_iff, or_iff_right h.ne_leadingDirs, h.takesAll_iff]

theorem accepts_anywhere_iff (h : IsSegment file ts) (some : ts ≠ []) :
    (Glob.mk (.leadingDirs :: ts)).accepts t = true ↔
      ∃ dirs n, Text.splitOn '/' t = dirs ++ [n] ∧ TakesAll n.bytes ts := by
  rw [accepts_iff, or_iff_right, h.takesAll_leadingDirs_iff]
  intro alone
  exact some (List.cons.inj alone).2

theorem accepts_below_iff (hd : IsSegment dir ds) (hf : IsSegment file ts) :
    (Glob.mk (ds ++ .innerDirs :: ts)).accepts t = true ↔
      ∃ d dirs n, Text.splitOn '/' t = d :: dirs ++ [n] ∧
        TakesAll d.bytes ds ∧ TakesAll n.bytes ts := by
  rw [accepts_iff, or_iff_right, hd.takesAll_innerDirs_iff hf]
  intro alone
  have inner : Token.innerDirs ∈ [Token.leadingDirs] := alone ▸ by simp
  cases inner with
  | tail _ impossible => cases impossible

end Matches

/-! ## Names without wildcards -/

/-- A text without slashes has no slash among its bytes. -/
theorem slash_not_mem_bytes {t : Text} (h : '/' ∉ t) : slash ∉ t.bytes := by
  intro mem
  obtain ⟨c, hc, mem⟩ := List.mem_flatMap.1 mem
  have code := (Text.utf8EncodeChar_of_mem_lt mem (by decide)).2
  obtain rfl : c = '/' := Char.toNat_inj.1 code
  exact h hc

/-- The text has no characters with a meaning of their own in patterns. -/
def IsPlain (s : Text) : Prop := ∀ c ∈ s, c ∉ ['/', '?', '*', '[', '\\', '{', '}']

instance (s : Text) : Decidable (IsPlain s) := List.decidableBAll _ s

theorem IsPlain.flat {s : Text} (h : IsPlain s) : Flat s :=
  ⟨fun mem => h _ mem (by decide), fun mem => h _ mem (by decide), fun mem => h _ mem (by decide)⟩

/-- Each character of such a text is read as itself. -/
theorem IsPlain.segmentTokens_eq {s : Text} (h : IsPlain s) :
    segmentTokens s = .ok (s.map .literal) := by
  induction s with
  | nil =>
    rw [segmentTokens]
    rfl
  | cons c s ih =>
    obtain ⟨hc, others⟩ := List.forall_mem_cons.1 h
    simp only [List.mem_cons, List.not_mem_nil, or_false, not_or] at hc
    obtain ⟨-, one, star, class_, escape, -, -⟩ := hc
    rw [segmentTokens, ih others]
    · rfl
    · exact one
    · exact fun _ eq _ => star eq
    · exact star
    · exact class_
    · exact fun eq _ => escape eq
    · exact fun _ _ eq _ => escape eq

theorem any_isSlashClass_literals (s : Text) : (s.map Token.literal).any isSlashClass = false := by
  induction s with
  | nil => rfl
  | cons c s ih => exact ih

/-- A name. -/
theorem IsPlain.isSegment {s : Text} (h : IsPlain s) : IsSegment s (s.map .literal) where
  flat := h.flat
  plain eq := h '*' (by simp [eq, directories]) (by decide)
  reads := h.segmentTokens_eq
  apart := any_isSlashClass_literals s

/-- A star with the ending of a name. -/
theorem IsPlain.isSegment_star {s : Text} (h : IsPlain s) :
    IsSegment ('*' :: s) (.many :: s.map .literal) where
  flat := by
    have flat := h.flat
    exact ⟨by simp [flat.slash], by simp [flat.opening], by simp [flat.closing]⟩
  plain eq := h '*' (by simp [(List.cons.inj eq).2]) (by decide)
  reads := by
    rw [segmentTokens, h.segmentTokens_eq]
    · rfl
    · rintro rest rfl
      exact h '*' List.mem_cons_self (by decide)
  apart := any_isSlashClass_literals s

/-- Literals stand for their bytes in either case. -/
theorem takesAll_literals_iff {s : Text} {u : List UInt8} :
    TakesAll u (s.map .literal) ↔ u.map foldByte = s.bytes.map foldByte := by
  induction s generalizing u with
  | nil => exact List.map_eq_nil_iff.symm
  | cons c s ih =>
    rw [List.map_cons, Text.bytes_cons, List.map_append, List.map_eq_append_iff]
    constructor
    · rintro ⟨v, w, rfl, first, others⟩
      exact ⟨v, w, rfl, first, ih.1 others⟩
    · rintro ⟨v, w, rfl, first, others⟩
      exact ⟨v, w, rfl, first, ih.2 others⟩

/-- A name matches the names that differ from it only in the case of letters. -/
theorem takesAll_name_iff {s t : Text} :
    TakesAll t.bytes (s.map .literal) ↔ t.foldCase = s.foldCase := by
  rw [takesAll_literals_iff, ← Text.bytes_foldCase, ← Text.bytes_foldCase]
  exact ⟨Text.bytes_injective, congrArg Text.bytes⟩

/-- A star with an ending that begins with an ASCII character matches the names with this ending, in
either case. -/
theorem takesAll_ending_iff {c : Char} (ascii : c.toNat < 128) {s t : Text} (single : '/' ∉ t) :
    TakesAll t.bytes (.many :: (c :: s).map .literal) ↔
      Text.foldCase (c :: s) <:+ t.foldCase := by
  constructor
  · rintro ⟨v, w, eq, -, takes⟩
    have lower : c.toLower.toNat < 128 := by
      rw [toNat_toLower]
      split <;> omega
    have code : (UInt8.ofNat c.toLower.toNat).toNat = c.toLower.toNat := by
      rw [UInt8.toNat_ofNat', Nat.mod_eq_of_lt (by omega)]
    rw [takesAll_literals_iff, ← Text.bytes_foldCase, Text.foldCase_cons, Text.bytes_cons,
      Text.utf8EncodeChar_of_lt lower] at takes
    -- the ending begins at a character of the name
    have bytes : t.foldCase.bytes =
        v.map foldByte ++ UInt8.ofNat c.toLower.toNat :: s.foldCase.bytes := by
      rw [Text.bytes_foldCase, eq, List.map_append, takes]
      rfl
    obtain ⟨a, c', b, cut, -, ending, same⟩ := Text.cut_of_bytes (by omega) bytes
    obtain rfl : c' = c.toLower := Char.toNat_inj.1 (same.trans code)
    rw [cut, Text.bytes_injective ending]
    exact List.suffix_append a _
  · rintro ⟨a, eq⟩
    obtain ⟨front, ending, rfl, -, same⟩ := List.map_eq_append_iff.1 eq.symm
    refine ⟨Text.bytes front, Text.bytes ending, Text.bytes_append .., ?_, ?_⟩
    · intro b hb
      have apart : '/' ∉ front := fun mem => single (List.mem_append_left _ mem)
      rw [bne_iff_ne]
      rintro rfl
      exact slash_not_mem_bytes apart hb
    · exact takesAll_name_iff.2 same

end TierLint.Glob
