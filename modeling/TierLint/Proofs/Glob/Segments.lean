import TierLint.Glob.Parse
import TierLint.Proofs.Glob.Language
import TierLint.Proofs.Outcome
import TierLint.Proofs.Text.Cut

/-!
# Globs read segment by segment

A segment of a pattern without braces reads the same in the pattern as alone, up to the slashes
around it (`readFrom_segment`); only a segment `**` depends on what stands in front of it and
behind. So the tokens of a pattern are those of its segments, with the slashes between them or with
tokens for directories in their place (`parse_segments`).
-/

set_option autoImplicit false

namespace TierLint.Glob

/-- The segment that stands for directories. -/
def directories : Text := ['*', '*']

/-- The text is a segment, and has no braces. -/
structure Flat (s : Text) : Prop where
  slash : '/' ∉ s
  opening : '{' ∉ s
  closing : '}' ∉ s

theorem Flat.of_suffix {s t : Text} (h : Flat t) (suffix : s <:+ t) : Flat s :=
  ⟨fun mem => h.slash (suffix.subset mem), fun mem => h.opening (suffix.subset mem),
    fun mem => h.closing (suffix.subset mem)⟩

/-- The tokens of a segment in which stars have no special place. -/
def segmentTokens (s : Text) : Except Error (List Token) :=
  match s with
  | [] => .ok []
  | '?' :: rest => (segmentTokens rest).map (.one :: ·)
  | '*' :: '*' :: rest => (segmentTokens rest).map (.many :: .many :: ·)
  | '*' :: rest => (segmentTokens rest).map (.many :: ·)
  | '[' :: rest =>
    match _h : readClass rest with
    | .ok (token, after) => (segmentTokens after).map (token :: ·)
    | .error e => .error e
  | '\\' :: [] => .error .danglingEscape
  | '\\' :: c :: rest => (segmentTokens rest).map (.literal c :: ·)
  | c :: rest => (segmentTokens rest).map (.literal c :: ·)
termination_by s.length
decreasing_by
  all_goals first
    | exact Nat.lt_succ_of_lt (readClass_length_lt _h)
    | (simp; try omega)

/-! ## Classes -/

/-- The members of a class are read up to the bracket that closes it, whatever follows. -/
theorem exists_members {atStart inRange : Bool} {ranges result : List (Char × Char)}
    {t after : Text} (h : classRanges atStart inRange ranges t = .ok (result, after)) :
    ∃ members, t = members ++ after ∧
      ∀ rest, classRanges atStart inRange ranges (members ++ rest) = .ok (result, rest) := by
  fun_induction classRanges atStart inRange ranges t generalizing result after with
  | case1 => cases h
  | case2 _ _ _ c t closes =>
    -- the closing bracket
    cases h
    refine ⟨[c], rfl, fun rest => ?_⟩
    rw [List.singleton_append, classRanges.eq_def]
    simp only [if_pos closes]
  | case3 _ _ _ c t closes dash ih =>
    -- a dash that begins a range
    obtain ⟨members, rfl, eq⟩ := ih h
    refine ⟨c :: members, rfl, fun rest => ?_⟩
    rw [List.cons_append, classRanges.eq_def]
    simp only [if_neg closes, if_pos dash, eq]
  | case4 => cases h
  | case5 _ c t closes first _ older order dash ih =>
    -- the character that ends a range
    obtain ⟨members, rfl, eq⟩ := ih h
    refine ⟨c :: members, rfl, fun rest => ?_⟩
    rw [List.cons_append, classRanges.eq_def]
    simp only [if_neg closes, if_neg dash, if_neg order, eq]
  | case6 _ _ _ c t closes dash other ih =>
    -- a character by itself
    obtain ⟨members, rfl, eq⟩ := ih h
    refine ⟨c :: members, rfl, fun rest => ?_⟩
    rw [List.cons_append, classRanges.eq_def]
    simp only [if_neg closes, if_neg dash]
    exact eq rest

/-- A class ends where it is closed, whatever follows. -/
theorem exists_class {t after : Text} {token : Token} (h : readClass t = .ok (token, after)) :
    ∃ inside, t = inside ++ after ∧ ∀ rest, readClass (inside ++ rest) = .ok (token, rest) := by
  cases t with
  | nil => cases h
  | cons c t =>
    rw [readClass] at h
    cases negated : Text.startsBy (fun c => c == '!' || c == '^') (c :: t) with
    | false =>
      rw [negated] at h
      obtain ⟨result, members, eq⟩ := exists_of_map_eq_ok h
      cases eq
      obtain ⟨inside, split, read⟩ := exists_members members
      cases inside with
      | nil => cases read []
      | cons d inside =>
        obtain ⟨rfl, rfl⟩ := List.cons.inj split
        refine ⟨c :: inside, rfl, fun rest => ?_⟩
        have same : Text.startsBy (fun c => c == '!' || c == '^') (c :: inside ++ rest) = false :=
          negated
        rw [readClass, same]
        simp only [Bool.false_eq_true, if_false, read, Except.map]
    | true =>
      rw [negated] at h
      obtain ⟨result, members, eq⟩ := exists_of_map_eq_ok h
      cases eq
      obtain ⟨inside, split, read⟩ := exists_members members
      refine ⟨c :: inside, congrArg (c :: ·) split, fun rest => ?_⟩
      have same : Text.startsBy (fun c => c == '!' || c == '^') (c :: inside ++ rest) = true :=
        negated
      rw [readClass, same]
      simp only [if_true, List.cons_append, List.tail_cons, read, Except.map]

theorem readClass_append {t after : Text} {token : Token} (h : readClass t = .ok (token, after))
    (rest : Text) : readClass (t ++ rest) = .ok (token, after ++ rest) ∧ after <:+ t := by
  obtain ⟨inside, rfl, read⟩ := exists_class h
  refine ⟨?_, List.suffix_append inside after⟩
  rw [List.append_assoc]
  exact read (after ++ rest)

/-! ## One segment -/

/-- Behind something that is no slash, two stars are two single ones. -/
theorem doubleStar_eq_twoStars {acc : List Token} (hacc : acc ≠ []) {before : Option Char}
    (hb : before ≠ some '/') (after : Option Char) :
    (⟨acc, []⟩ : Progress).doubleStar before after = .twoStars := by
  cases acc with
  | nil => exact absurd rfl hacc
  | cons t acc => simp [Progress.doubleStar, hb]

section Steps

-- This makes the reader's equations once, before the proofs below need them side by side.
attribute [local simp] readFrom Progress.push

variable (before : Option Char) (acc : List Token)

theorem readFrom_one (t : Text) :
    readFrom before ⟨acc, []⟩ ('?' :: t) = readFrom (some '?') ⟨.one :: acc, []⟩ t := by
  simp

theorem readFrom_twoStars {t : Text}
    (stars : (⟨acc, []⟩ : Progress).doubleStar before t.head? = .twoStars) :
    readFrom before ⟨acc, []⟩ ('*' :: '*' :: t) =
      readFrom (some '*') ⟨.many :: .many :: acc, []⟩ t := by
  rw [readFrom, stars]
  rfl

theorem readFrom_star {t : Text} (single : ∀ u, t ≠ '*' :: u) :
    readFrom before ⟨acc, []⟩ ('*' :: t) = readFrom (some '*') ⟨.many :: acc, []⟩ t := by
  rw [readFrom, Progress.push]
  exact single

theorem readFrom_class {t after : Text} {token : Token} (h : readClass t = .ok (token, after)) :
    readFrom before ⟨acc, []⟩ ('[' :: t) = readFrom (some ']') ⟨token :: acc, []⟩ after := by
  rw [readFrom]
  split
  · rename_i h'
    rw [h] at h'
    cases h'
    rfl
  · rename_i h'
    rw [h] at h'
    cases h'

theorem readFrom_class_error {t : Text} {e : Error} (h : readClass t = .error e) :
    readFrom before ⟨acc, []⟩ ('[' :: t) = .error e := by
  rw [readFrom]
  split
  · rename_i h'
    rw [h] at h'
    cases h'
  · rename_i h'
    rw [h] at h'
    cases h'
    rfl

theorem readFrom_escape (c : Char) (t : Text) :
    readFrom before ⟨acc, []⟩ ('\\' :: c :: t) = readFrom (some c) ⟨.literal c :: acc, []⟩ t := by
  simp

/-- Any character without a meaning of its own stands for itself; so does a comma outside of
braces. -/
theorem readFrom_literal {c : Char} {t : Text} (one : c ≠ '?') (star : c ≠ '*') (class_ : c ≠ '[')
    (escape : c ≠ '\\') (opening : c ≠ '{') (closing : c ≠ '}') :
    readFrom before ⟨acc, []⟩ (c :: t) = readFrom (some c) ⟨.literal c :: acc, []⟩ t := by
  by_cases comma : c = ','
  · subst comma
    rw [readFrom]
    rfl
  · rw [readFrom, Progress.push]
    · exact one
    · exact fun _ eq _ => star eq
    · exact star
    · exact class_
    · exact opening
    · exact closing
    · exact comma
    · exact fun eq _ => escape eq
    · exact fun _ _ eq _ => escape eq

end Steps

/-- Reading goes on behind a segment with the segment's tokens, provided that no two stars at its
beginning stand for directories. A flawed segment is flawed at the end of a pattern too; text behind
it could mend it. -/
theorem readFrom_segment {s rest : Text} (flat : Flat s) (hrest : rest.head? ≠ some '*')
    (whole : rest = [] ∨ ∃ ts, segmentTokens s = .ok ts) (acc : List Token) (before : Option Char)
    (stars : ∀ t, s = '*' :: '*' :: t →
      (⟨acc, []⟩ : Progress).doubleStar before (t ++ rest).head? = .twoStars) :
    ∃ before', readFrom before ⟨acc, []⟩ (s ++ rest) =
      (segmentTokens s).bind fun ts => readFrom before' ⟨ts.reverse ++ acc, []⟩ rest := by
  -- behind its first token, stars of a segment have no special place
  have later : ∀ {c : Char}, c ≠ '/' → ∀ (k : Token) (acc : List Token) (s t : Text),
      s = '*' :: '*' :: t →
      (⟨k :: acc, []⟩ : Progress).doubleStar (some c) (t ++ rest).head? = .twoStars := by
    intro c hc k acc s t _
    exact doubleStar_eq_twoStars (by simp) (by simpa using hc) _
  fun_induction segmentTokens s generalizing acc before with
  | case1 => exact ⟨before, rfl⟩
  | case2 t ih =>
    -- a question mark
    obtain ⟨before', eq⟩ := ih (flat.of_suffix (List.suffix_cons _ _))
      (whole.imp_right exists_ok_of_map) (.one :: acc) (some '?') (later (by decide) _ _ _)
    refine ⟨before', ?_⟩
    rw [List.cons_append, readFrom_one, eq, bind_map_eq]
    simp
  | case3 t ih =>
    -- two stars, by assumption not for directories
    have flat' := flat.of_suffix ((List.suffix_cons _ _).trans (List.suffix_cons _ _))
    obtain ⟨before', eq⟩ := ih flat' (whole.imp_right exists_ok_of_map) (.many :: .many :: acc)
      (some '*') (later (by decide) _ _ _)
    refine ⟨before', ?_⟩
    rw [List.cons_append, List.cons_append, readFrom_twoStars _ _ (stars t rfl), eq, bind_map_eq]
    simp
  | case4 t single ih =>
    obtain ⟨before', eq⟩ := ih (flat.of_suffix (List.suffix_cons _ _))
      (whole.imp_right exists_ok_of_map) (.many :: acc) (some '*') (later (by decide) _ _ _)
    -- the rest does not turn the last star of the segment into two
    have single' : ∀ u, t ++ rest ≠ '*' :: u := by
      intro u hu
      cases t with
      | nil => exact hrest (by rw [show rest = '*' :: u from hu]; rfl)
      | cons d t => exact single t (by rw [(List.cons.inj hu).1])
    refine ⟨before', ?_⟩
    rw [List.cons_append, readFrom_star _ _ single', eq, bind_map_eq]
    simp
  | case5 t token after hc ih =>
    obtain ⟨class_, suffix⟩ := readClass_append hc rest
    obtain ⟨before', eq⟩ := ih (flat.of_suffix (suffix.trans (List.suffix_cons _ _)))
      (whole.imp_right exists_ok_of_map) (token :: acc) (some ']') (later (by decide) _ _ _)
    refine ⟨before', ?_⟩
    rw [List.cons_append, readFrom_class _ _ class_, eq, bind_map_eq]
    simp
  | case6 t e hc =>
    -- a class that is flawed, or that text behind the segment could close
    obtain rfl : rest = [] := whole.resolve_right nofun
    refine ⟨none, ?_⟩
    rw [List.append_nil, readFrom_class_error _ _ hc]
    rfl
  | case7 =>
    -- a backslash that would take the first character of text behind it
    obtain rfl : rest = [] := whole.resolve_right nofun
    refine ⟨none, ?_⟩
    rw [List.append_nil, readFrom]
    rfl
  | case8 c t ih =>
    -- an escaped character
    have flat' := flat.of_suffix ((List.suffix_cons _ _).trans (List.suffix_cons _ _))
    obtain ⟨before', eq⟩ := ih flat' (whole.imp_right exists_ok_of_map) (.literal c :: acc) (some c)
      (later (fun eq => flat.slash (by simp [eq])) _ _ _)
    refine ⟨before', ?_⟩
    rw [List.cons_append, List.cons_append, readFrom_escape, eq, bind_map_eq]
    simp
  | case9 c t one _ star class_ alone escape ih =>
    -- any other character, which is no brace either
    obtain ⟨before', eq⟩ := ih (flat.of_suffix (List.suffix_cons _ _))
      (whole.imp_right exists_ok_of_map) (.literal c :: acc) (some c)
      (later (fun eq => flat.slash (by simp [eq])) _ _ _)
    refine ⟨before', ?_⟩
    have plain := Text.ne_backslash_of_cons alone escape
    rw [List.cons_append, readFrom_literal _ _ one star class_ plain
      (fun eq => flat.opening (by simp [eq])) (fun eq => flat.closing (by simp [eq])), eq,
      bind_map_eq]
    simp

/-- As a pattern, a segment is read alone. -/
theorem parse_segment {s : Text} (flat : Flat s) (plain : s ≠ directories) :
    parse s = (segmentTokens s).map Glob.mk := by
  have stars : ∀ t, s = '*' :: '*' :: t →
      (⟨[], []⟩ : Progress).doubleStar none (t ++ []).head? = .twoStars := by
    rintro t rfl
    cases t with
    | nil => exact absurd rfl plain
    | cons c t =>
      have hc : c ≠ '/' := fun eq => flat.slash (by simp [eq])
      simp [Progress.doubleStar, hc]
  obtain ⟨before', eq⟩ := readFrom_segment flat (by simp : ([] : Text).head? ≠ some '*')
    (.inl rfl) [] none stars
  rw [List.append_nil] at eq
  rw [parse, eq]
  cases segmentTokens s with
  | error e => rfl
  | ok ts =>
    rw [Except.bind, readFrom]
    simp [Except.map]

/-! ## All segments -/

/-- What a segment is read as. -/
inductive Segment where
  /-- Directories. -/
  | directories
  /-- The tokens of any other segment. -/
  | plain (tokens : List Token)

/-- A segment that is a glob by itself, and what it is read as. -/
inductive Reads : Text → Segment → Prop
  | directories : Reads directories .directories
  | plain {s : Text} {ts : List Token} :
      s ≠ Glob.directories → segmentTokens s = .ok ts → Reads s (.plain ts)

/-- What stands in front of a segment. -/
inductive Gap where
  /-- The beginning of the pattern. -/
  | start
  /-- A slash. -/
  | slash
  /-- Directories from the beginning on, with their slash. -/
  | leading
  /-- Directories between slashes. -/
  | inner

namespace Gap

/-- The character in front of the segment. -/
def before : Gap → Option Char
  | start => none
  | _ => some '/'

/-- The token in front of the segment, if there is one. -/
def tokens : Gap → List Token
  | start => []
  | slash => [.literal '/']
  | leading => [.leadingDirs]
  | inner => [.innerDirs]

@[simp] theorem reverse_tokens (gap : Gap) : gap.tokens.reverse = gap.tokens := by
  cases gap <;> rfl

/-- The gap behind a segment that stands for directories. -/
def across : Gap → Gap
  | start | leading => leading
  | slash | inner => inner

/-- The token for the gap and directories at the end of the pattern. -/
def toEnd : Gap → Token
  | start | leading => .leadingDirs
  | slash | inner => .belowDir

/-- The gap can only stand at the beginning of the pattern. -/
def isFirst : Gap → Bool
  | start | leading => true
  | slash | inner => false

end Gap

/-- The tokens of some segments and the gap in front of them. -/
def tokensFrom (gap : Gap) : List Segment → List Token
  | [] => gap.tokens
  | [.directories] => [gap.toEnd]
  | .directories :: rest => tokensFrom gap.across rest
  | [.plain ts] => gap.tokens ++ ts
  | .plain ts :: rest => gap.tokens ++ ts ++ tokensFrom .slash rest

theorem tokensFrom_directories (gap : Gap) (s : Segment) (ss : List Segment) :
    tokensFrom gap (.directories :: s :: ss) = tokensFrom gap.across (s :: ss) := rfl

theorem tokensFrom_plain (gap : Gap) (ts : List Token) (s : Segment) (ss : List Segment) :
    tokensFrom gap (.plain ts :: s :: ss) =
      gap.tokens ++ ts ++ tokensFrom .slash (s :: ss) := rfl

theorem doubleStar_of_gap (gap : Gap) (older : List Token) {c : Char} (hc : c ≠ '/') :
    (⟨gap.tokens ++ older, []⟩ : Progress).doubleStar gap.before (some c) = .twoStars := by
  cases gap with
  | start => cases older <;> simp [Gap.tokens, Gap.before, Progress.doubleStar, hc]
  | _ => simp [Gap.tokens, Gap.before, Progress.doubleStar, hc]

/-- In a gap, two stars at the end of the pattern stand for directories. -/
theorem readFrom_directories {gap : Gap} {older : List Token} (first : gap.isFirst → older = []) :
    readFrom gap.before ⟨gap.tokens ++ older, []⟩ directories =
      .ok (older.reverse ++ [gap.toEnd]) := by
  cases gap with
  | start | leading =>
    obtain rfl := first rfl
    simp [directories, readFrom, Gap.before, Gap.tokens, Gap.toEnd, Progress.doubleStar,
      Progress.DoubleStar.takesSlash, Progress.pushDoubleStar, Progress.replaceLast, Progress.push]
  | slash | inner =>
    simp [directories, readFrom, Gap.before, Gap.tokens, Gap.toEnd, Progress.doubleStar,
      Progress.DoubleStar.takesSlash, Progress.pushDoubleStar, Progress.replaceLast]

/-- In a gap, two stars with a slash behind them stand for directories and take the slash. -/
theorem readFrom_directories_slash {gap : Gap} {older : List Token}
    (first : gap.isFirst → older = []) (t : Text) :
    readFrom gap.before ⟨gap.tokens ++ older, []⟩ (directories ++ '/' :: t) =
      readFrom gap.across.before ⟨gap.across.tokens ++ older, []⟩ t := by
  cases gap with
  | start | leading =>
    obtain rfl := first rfl
    simp [directories, readFrom, Gap.before, Gap.tokens, Gap.across, Progress.doubleStar,
      Progress.DoubleStar.takesSlash, Progress.pushDoubleStar, Progress.replaceLast, Progress.push]
  | slash | inner =>
    simp [directories, readFrom, Gap.before, Gap.tokens, Gap.across, Progress.doubleStar,
      Progress.DoubleStar.takesSlash, Progress.pushDoubleStar, Progress.replaceLast]

theorem isFirst_across (gap : Gap) : gap.across.isFirst = gap.isFirst := by
  cases gap <;> rfl

/-- A slash is read as itself. -/
theorem readFrom_slash (before : Option Char) (ts : List Token) (t : Text) :
    readFrom before ⟨ts, []⟩ ('/' :: t) =
      readFrom Gap.slash.before ⟨Gap.slash.tokens ++ ts, []⟩ t := by
  rw [readFrom] <;> simp [Gap.before, Gap.tokens, Progress.push]

/-- The tokens of a pattern are those of its segments, put together by the gaps between them. -/
theorem readFrom_segments {ps : List Text} {ss : List Segment} (h : List.Forall₂ Reads ps ss)
    (flat : ∀ p ∈ ps, Flat p) (ne : ps ≠ []) (gap : Gap) (older : List Token)
    (first : gap.isFirst → older = []) :
    readFrom gap.before ⟨gap.tokens ++ older, []⟩ (['/'].intercalate ps) =
      .ok (older.reverse ++ tokensFrom gap ss) := by
  induction h generalizing gap older with
  | nil => exact absurd rfl ne
  | @cons p s ps ss hp hps ih =>
    cases hp with
    | directories =>
      -- the double star becomes part of the gap
      cases hps with
      | nil =>
        rw [List.intercalate_singleton, readFrom_directories first]
        rfl
      | @cons q s' qs ss' hq hqs =>
        rw [List.intercalate_cons_cons, List.append_assoc, List.singleton_append,
          readFrom_directories_slash first, ih (fun p hp => flat p (List.mem_cons_of_mem _ hp))
            (by simp) gap.across older (by rwa [isFirst_across])]
        rfl
    | @plain _ ts plain hts =>
      -- two stars at the beginning of the segment have a character behind them, and no slash
      have stars : ∀ rest t, p = '*' :: '*' :: t →
          (⟨gap.tokens ++ older, []⟩ : Progress).doubleStar gap.before (t ++ rest).head? =
            .twoStars := by
        rintro rest t rfl
        cases t with
        | nil => exact absurd rfl plain
        | cons c t =>
          refine doubleStar_of_gap gap older fun eq => ?_
          exact (flat _ List.mem_cons_self).slash (by simp [eq])
      cases hps with
      | nil =>
        -- the last segment
        obtain ⟨before', eq⟩ := readFrom_segment (flat p List.mem_cons_self)
          (by simp : ([] : Text).head? ≠ some '*') (.inl rfl) (gap.tokens ++ older) gap.before
          (stars [])
        rw [List.append_nil, hts, Except.bind] at eq
        rw [List.intercalate_singleton, eq, readFrom]
        simp [tokensFrom]
      | @cons q s' qs ss' hq hqs =>
        -- a slash follows, and reading goes on in the gap behind it
        have slash : ('/' :: ['/'].intercalate (q :: qs)).head? ≠ some '*' := by simp
        obtain ⟨before', eq⟩ := readFrom_segment (flat p List.mem_cons_self) slash
          (.inr ⟨ts, hts⟩) (gap.tokens ++ older) gap.before (stars _)
        rw [hts, Except.bind] at eq
        rw [List.intercalate_cons_cons, List.append_assoc, List.singleton_append, eq,
          readFrom_slash, ih (fun p hp => flat p (List.mem_cons_of_mem _ hp)) (by simp) .slash _
            (by simp [Gap.isFirst])]
        simp [tokensFrom]

/-- As a pattern, segments that are globs are read as these tokens. -/
theorem parse_segments {ps : List Text} {ss : List Segment} (h : List.Forall₂ Reads ps ss)
    (flat : ∀ p ∈ ps, Flat p) (ne : ps ≠ []) :
    parse (['/'].intercalate ps) = .ok ⟨tokensFrom .start ss⟩ := by
  have read := readFrom_segments h flat ne .start [] (fun _ => rfl)
  exact congrArg (Except.map Glob.mk) read

end TierLint.Glob
