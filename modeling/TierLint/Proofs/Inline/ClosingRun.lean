import TierLint.Proofs.Offsets.CodeSpan

/-!
# The run that closes a code span

A run of backticks is maximal if no further backtick touches it from either side. A text is cut at
such a run into what stands in front of it and what stands behind (`Text.RunBehind`). The leading run
of a text is one of them, and the others are those of the text behind it (`Text.runBehind_iff`).

A code span ends with the first maximal run behind the leading one that has its length
(`CodeSpan.ClosesFirst`). The reader finds a code span exactly if there is such a run, and then it is
the only one that ends so (`CodeSpan.read?_closesFirst`).
-/

set_option autoImplicit false

namespace TierLint

open List Text

variable {c d : Char} {n : Nat} {t u front back other : Text}

namespace Text

/-- Behind `front` the text goes on with a maximal run of exactly `n` characters `c`. -/
def RunBehind (c : Char) (n : Nat) (front t : Text) : Prop :=
  ∃ back, t = front ++ replicate n c ++ back ∧
    endsBy (· == c) front = false ∧ startsBy (· == c) back = false

theorem replicate_append_ne_nil (hn : 0 < n) (c : Char) (u : Text) : replicate n c ++ u ≠ [] := by
  apply append_ne_nil_of_left_ne_nil
  rw [Ne, replicate_eq_nil_iff]
  omega

theorem startsBy_replicate_append (hn : 0 < n) (c : Char) (back : Text) :
    startsBy (· == c) (replicate n c ++ back) = true := by
  obtain ⟨m, rfl⟩ : ∃ m, n = m + 1 := ⟨n - 1, by omega⟩
  exact beq_self_eq_true c

namespace RunBehind

/-- What stands in front of a run is a beginning of the text. -/
theorem isPrefix (h : RunBehind c n front t) : front <+: t := by
  obtain ⟨back, rfl, -, -⟩ := h
  exact ⟨replicate n c ++ back, (append_assoc ..).symm⟩

/-- No run begins a text that begins with another character. -/
theorem ne_nil (h : RunBehind c n front t) (hn : 0 < n) (ht : startsBy (· == c) t = false) :
    front ≠ [] := by
  rintro rfl
  obtain ⟨back, rfl, -, -⟩ := h
  rw [nil_append, startsBy_replicate_append hn] at ht
  cases ht

/-- A run stays maximal behind a text that it does not continue. -/
theorem behind (h : RunBehind c n front t) (ne : front ≠ []) (u : Text) :
    RunBehind c n (u ++ front) (u ++ t) := by
  obtain ⟨back, rfl, ends, starts⟩ := h
  refine ⟨back, ?_, ?_, starts⟩
  · rw [append_assoc, append_assoc, append_assoc]
  · rw [endsBy_append_of_ne_nil u ne]
    exact ends

end RunBehind

/-- The leading run of a text is maximal, and every other maximal run is one of the text behind it. -/
theorem runBehind_iff (hn : 0 < n) :
    RunBehind c n front t ↔
      front = [] ∧ runLength c t = n ∨
        ∃ inner, front = replicate (runLength c t) c ++ inner ∧
          RunBehind c n inner (afterRun c t) := by
  constructor
  · rintro ⟨back, rfl, ends, starts⟩
    by_cases ne : front = []
    · left
      subst ne
      exact ⟨rfl, runLength_replicate_append starts n⟩
    · right
      -- `front` is its own leading run and a text that does not go on with it
      have whole := replicate_runLength_append_afterRun c front
      have inner : afterRun c front ≠ [] := by
        intro none
        rw [none, append_nil] at whole
        rw [← whole] at ends ne
        have first : runLength c front ≠ 0 := by
          intro zero
          rw [zero] at ne
          exact ne rfl
        rw [endsBy, getLast?_replicate, if_neg first] at ends
        exact absurd (beq_self_eq_true c) (Bool.eq_false_iff.1 ends)
      have other : startsBy (· == c) (afterRun c front ++ (replicate n c ++ back)) = false := by
        rw [startsBy_append_of_ne_nil inner]
        exact startsBy_afterRun c front
      have split : front ++ replicate n c ++ back =
          replicate (runLength c front) c ++ (afterRun c front ++ (replicate n c ++ back)) := by
        rw [← append_assoc, whole, append_assoc]
      rw [split, runLength_replicate_append other, afterRun_replicate_append other]
      refine ⟨afterRun c front, whole.symm, back, (append_assoc ..).symm, ?_, starts⟩
      rw [← whole, endsBy_append_of_ne_nil _ inner] at ends
      exact ends
  · have whole := replicate_runLength_append_afterRun c t
    rintro (⟨rfl, rfl⟩ | ⟨inner, rfl, run⟩)
    · exact ⟨afterRun c t, whole.symm, rfl, startsBy_afterRun c t⟩
    · have ne := run.ne_nil hn (startsBy_afterRun c t)
      have shifted := run.behind ne (replicate (runLength c t) c)
      rwa [whole] at shifted

/-- In front of another character there is no run, and behind it are those of the rest. -/
theorem runBehind_cons_iff (hn : 0 < n) (hd : d ≠ c) :
    RunBehind c n front (d :: t) ↔ ∃ inner, front = d :: inner ∧ RunBehind c n inner t := by
  have starts : startsBy (· == c) (d :: t) = false := beq_eq_false_iff_ne.2 hd
  constructor
  · intro h
    have ne := h.ne_nil hn starts
    obtain ⟨back, whole, ends, behind⟩ := h
    cases front with
    | nil => exact absurd rfl ne
    | cons e inner =>
      rw [cons_append, cons_append, cons.injEq] at whole
      obtain ⟨rfl, rfl⟩ := whole
      refine ⟨inner, rfl, back, rfl, ?_, behind⟩
      by_cases none : inner = []
      · subst none
        rfl
      · rwa [← singleton_append, endsBy_append_of_ne_nil _ none] at ends
  · rintro ⟨inner, rfl, back, rfl, ends, behind⟩
    refine ⟨back, rfl, ?_, behind⟩
    by_cases none : inner = []
    · subst none
      exact beq_eq_false_iff_ne.2 hd
    · rwa [← singleton_append, endsBy_append_of_ne_nil _ none]

end Text

namespace CodeSpan

variable {rest content after : Text} {s : CodeSpan}

/-! ## The search -/

/-- Where the search ends, a maximal run begins, and none begins earlier. The induction follows the
search from run to run. -/
theorem runBehind_of_closing? (hn : 0 < n) (h : closing? n t = some (content, after)) :
    RunBehind '`' n content t ∧ ∀ front, RunBehind '`' n front t → content <+: front := by
  fun_induction closing? n t generalizing content after with
  | case1 => cases h
  | case2 rest run =>
    -- the run at the beginning
    rename_i found
    cases h
    have length : runLength '`' ('`' :: rest) = n := (runLength_cons_self '`' rest).trans found
    exact ⟨(runBehind_iff hn).2 (.inl ⟨rfl, length⟩), fun front _ => nil_prefix⟩
  | case3 rest run =>
    -- a run of another length
    rename_i other ih
    have length : runLength '`' ('`' :: rest) = run := runLength_cons_self '`' rest
    have behind : afterRun '`' ('`' :: rest) = afterRun '`' rest := afterRun_cons_self '`' rest
    obtain ⟨inner, hi, rfl⟩ := prependTo_eq_some.1 h
    obtain ⟨here, first⟩ := ih hi
    constructor
    · rw [runBehind_iff hn, length, behind]
      exact .inr ⟨inner, rfl, here⟩
    · intro front h
      rw [runBehind_iff hn, length, behind] at h
      rcases h with ⟨-, same⟩ | ⟨inner', rfl, run⟩
      · exact absurd same other
      · exact (prefix_append_right_inj _).2 (first inner' run)
  | case4 c rest other ih =>
    -- a character that is no backtick
    obtain ⟨inner, hi, rfl⟩ := prependTo_eq_some.1 h
    obtain ⟨here, first⟩ := ih hi
    constructor
    · exact (runBehind_cons_iff hn other).2 ⟨inner, rfl, here⟩
    · intro front h
      obtain ⟨inner', rfl, run⟩ := (runBehind_cons_iff hn other).1 h
      exact (prefix_append_right_inj [c]).2 (first inner' run)

/-- What the search passes over has no maximal run of the length: it would be one of the text, and
begin in front of the one that was found. -/
theorem not_runBehind_content (hn : 0 < n) (h : closing? n t = some (content, after))
    (front : Text) : ¬ RunBehind '`' n front content := by
  rintro ⟨back, split, ends, starts⟩
  obtain ⟨⟨-, -, last, -⟩, first⟩ := runBehind_of_closing? hn h
  have run : replicate n '`' ≠ [] := by
    rw [Ne, replicate_eq_nil_iff]
    omega
  -- the run does not end the content, which would then end with a backtick
  have ne : back ≠ [] := by
    rintro rfl
    rw [split, append_nil, endsBy_append_of_ne_nil _ run, endsBy, getLast?_replicate,
      if_neg (by omega)] at last
    exact absurd (beq_self_eq_true '`') (Bool.eq_false_iff.1 last)
  have earlier : RunBehind '`' n front t := by
    refine ⟨back ++ (replicate n '`' ++ after), ?_, ends, ?_⟩
    · rw [eq_of_closing? h, split]
      simp only [append_assoc]
    · rw [startsBy_append_of_ne_nil ne]
      exact starts
  have short := (first front earlier).length_le
  rw [split, length_append, length_append, length_replicate] at short
  omega

/-- The search ends wherever a maximal run of the length begins. -/
theorem exists_closing? (hn : 0 < n) (h : RunBehind '`' n front t) :
    ∃ content after, closing? n t = some (content, after) := by
  fun_induction closing? n t generalizing front with
  | case1 =>
    obtain ⟨back, whole, -, -⟩ := h
    have length := congrArg List.length whole
    simp only [length_nil, length_append, length_replicate] at length
    omega
  | case2 rest run => exact ⟨[], afterRun '`' rest, rfl⟩
  | case3 rest run =>
    rename_i other ih
    rw [runBehind_iff hn, runLength_cons_self, afterRun_cons_self] at h
    rcases h with ⟨-, same⟩ | ⟨inner, -, h⟩
    · exact absurd same other
    · obtain ⟨content, after, found⟩ := ih h
      exact ⟨_, after, prependTo_eq_some.2 ⟨content, found, rfl⟩⟩
  | case4 c rest other ih =>
    obtain ⟨inner, -, h⟩ := (runBehind_cons_iff hn other).1 h
    obtain ⟨content, after, found⟩ := ih h
    exact ⟨_, after, prependTo_eq_some.2 ⟨content, found, rfl⟩⟩

/-! ## Code spans -/

/-- The text begins with the code span `s`, which the first maximal run of its length behind the
leading run closes, and `rest` is what follows. -/
structure ClosesFirst (t : Text) (s : CodeSpan) (rest : Text) : Prop where
  /-- The text is a run, the content, a run of the same length, and the rest. -/
  whole : t = replicate s.ticks '`' ++ s.content ++ replicate s.ticks '`' ++ rest
  /-- The span opens with the whole leading run. -/
  opening : s.ticks = runLength '`' t
  /-- A maximal run of this length begins behind the content. -/
  closing : RunBehind '`' s.ticks (replicate s.ticks '`' ++ s.content) t
  /-- No other one begins between the leading run and there. -/
  first : ∀ front, front ≠ [] → RunBehind '`' s.ticks front t →
    replicate s.ticks '`' ++ s.content <+: front
  /-- The content by itself has no maximal run of this length. -/
  inside : ∀ front, ¬ RunBehind '`' s.ticks front s.content
  /-- No further backtick follows. -/
  ended : startsBy (· == '`') rest = false

/-- Behind the leading run, the maximal runs of a text are those of the rest. -/
theorem runBehind_iff_afterRun (hn : 0 < n) (leading : runLength '`' t = n) (ne : front ≠ []) :
    RunBehind '`' n front t ↔
      ∃ inner, front = replicate n '`' ++ inner ∧ RunBehind '`' n inner (afterRun '`' t) := by
  rw [runBehind_iff hn, leading]
  constructor
  · rintro (⟨none, -⟩ | later)
    · exact absurd none ne
    · exact later
  · exact .inr

/-- The reader looks for the closing run behind the leading one. -/
theorem read?_eq_closing? (hn : 0 < n) (leading : runLength '`' t = n) :
    read? t = (closing? n (afterRun '`' t)).map fun (content, after) => (⟨n, content⟩, after) := by
  obtain ⟨k, rfl⟩ : ∃ k, n = k + 1 := ⟨n - 1, by omega⟩
  have split := replicate_runLength_append_afterRun '`' t
  rw [leading] at split
  calc read? t = read? (replicate (k + 1) '`' ++ afterRun '`' t) := by rw [split]
    _ = _ := read?_run (startsBy_afterRun '`' t) k

/-- What the reader returns is closed by the first run of its length. -/
theorem closesFirst_of_read? (hn : 0 < n) (leading : runLength '`' t = n)
    (h : read? t = some (s, rest)) : s.ticks = n ∧ ClosesFirst t s rest := by
  have whole := eq_of_read? h
  have ended := startsBy_of_read? h
  rw [read?_eq_closing? hn leading] at h
  obtain ⟨⟨content, after⟩, found, eq⟩ := Option.map_eq_some_iff.1 h
  cases eq
  obtain ⟨here, earliest⟩ := runBehind_of_closing? hn found
  have later : replicate n '`' ++ content ≠ [] := replicate_append_ne_nil hn '`' content
  have closing : RunBehind '`' n (replicate n '`' ++ content) t :=
    (runBehind_iff_afterRun hn leading later).2 ⟨content, rfl, here⟩
  have first : ∀ front, front ≠ [] → RunBehind '`' n front t →
      replicate n '`' ++ content <+: front := by
    intro front ne run
    obtain ⟨inner, rfl, behind⟩ := (runBehind_iff_afterRun hn leading ne).1 run
    exact (prefix_append_right_inj _).2 (earliest inner behind)
  exact ⟨rfl, whole, leading.symm, closing, first, not_runBehind_content hn found, ended⟩

/-- A code span that the first run closes is read. -/
theorem ClosesFirst.read? (h : ClosesFirst t s rest) (hn : 0 < n) (leading : runLength '`' t = n) :
    CodeSpan.read? t = some (s, rest) := by
  obtain rfl : s.ticks = n := h.opening.trans leading
  have later := replicate_append_ne_nil hn '`' s.content
  obtain ⟨inner, -, run⟩ := (runBehind_iff_afterRun hn leading later).1 h.closing
  obtain ⟨content, after, found⟩ := exists_closing? hn run
  have read : CodeSpan.read? t = some (⟨s.ticks, content⟩, after) := by
    rw [read?_eq_closing? hn leading, found]
    rfl
  -- the two end at the same run, so they are the same
  obtain ⟨-, again⟩ := closesFirst_of_read? hn leading read
  have below := h.first _ (replicate_append_ne_nil hn '`' content) again.closing
  have above := again.first _ later h.closing
  obtain rfl : content = s.content :=
    append_cancel_left (above.eq_of_length_le below.length_le)
  have tail : after = rest := append_cancel_left (again.whole.symm.trans h.whole)
  rw [read, tail]

/-- **Closing runs.** In a text with a leading run of `n` backticks, a code span is read exactly if
a later maximal run has the length `n`. It is the one that the first such run closes, and as many
bytes long as its content and the two runs. -/
theorem read?_closesFirst (hn : 0 < n) (leading : runLength '`' t = n) :
    ((∃ s rest, read? t = some (s, rest)) ↔ ∃ front, front ≠ [] ∧ RunBehind '`' n front t) ∧
    (∀ s rest, read? t = some (s, rest) ↔ ClosesFirst t s rest) ∧
    ∀ s rest, read? t = some (s, rest) → s.ticks = n ∧
      byteLength s.source = 2 * n + byteLength s.content ∧
      Offsets.codeSpan t = .ok (some (2 * n + byteLength s.content, s.content, n)) := by
  refine ⟨⟨?found, ?later⟩, fun s rest => ⟨?closes, ?only⟩, ?length⟩
  case found =>
    rintro ⟨s, rest, h⟩
    obtain ⟨rfl, closes⟩ := closesFirst_of_read? hn leading h
    exact ⟨_, replicate_append_ne_nil hn '`' s.content, closes.closing⟩
  case later =>
    rintro ⟨front, ne, run⟩
    obtain ⟨inner, -, run⟩ := (runBehind_iff_afterRun hn leading ne).1 run
    obtain ⟨content, after, found⟩ := exists_closing? hn run
    refine ⟨⟨n, content⟩, after, ?_⟩
    rw [read?_eq_closing? hn leading, found]
    rfl
  case closes => exact fun h => (closesFirst_of_read? hn leading h).2
  case only => exact fun h => h.read? hn leading
  case length =>
    intro s rest h
    obtain ⟨ticks, -⟩ := closesFirst_of_read? hn leading h
    have size : byteLength s.source = 2 * n + byteLength s.content := by
      have run := byteLength_replicate (c := '`') (by decide) n
      rw [source, marker, ticks, byteLength_append, byteLength_append, run]
      omega
    refine ⟨ticks, size, ?_⟩
    rw [Offsets.codeSpan_eq, h, Option.map_some]
    simp only [size, ticks]

/-- Shorter and longer runs are content, and a later run of the same length stays outside. -/
theorem read?_closesFirst_unequal_runs :
    0 < 2 ∧ runLength '`' "``é`b```c`` d``".toList = 2 ∧
      (∃ front, front ≠ [] ∧ RunBehind '`' 2 front "``é`b```c`` d``".toList) ∧
      ClosesFirst "``é`b```c`` d``".toList ⟨2, "é`b```c".toList⟩ " d``".toList ∧
      Offsets.codeSpan "``é`b```c`` d``".toList =
        .ok (some (2 * 2 + byteLength "é`b```c".toList, "é`b```c".toList, 2)) := by
  have leading : runLength '`' "``é`b```c`` d``".toList = 2 := by decide
  have read : read? "``é`b```c`` d``".toList =
      some (⟨2, "é`b```c".toList⟩, " d``".toList) := by decide +kernel
  obtain ⟨found, closes, length⟩ := read?_closesFirst (by decide) leading
  obtain ⟨-, -, scanned⟩ := length _ _ read
  exact ⟨by decide, leading, found.1 ⟨_, _, read⟩, (closes _ _).1 read, scanned⟩

end CodeSpan

end TierLint
