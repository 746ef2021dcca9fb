import Mathlib.Algebra.Group.Nat.Even
import Mathlib.Data.List.GetD
import TierLint.Proofs.Lint.Dispatch

/-!
# The lines that are too long

The rule on line lengths goes over the raw text with a flag for fenced regions and the byte at which
the line begins. Neither is needed to say what it reports: a line is too long if it has more
characters than the limit, bears no mark, and an even number of lines that begin or end a fenced
region stand in front of it (`LineLength.IsOverlong`). These lines are reported, each once and in
their order, from the first character past the limit to the end of the line
(`LineLength.locations_eq`, `Rule.check_lineLength`).
-/

set_option autoImplicit false

namespace TierLint

open List Text

namespace LineLength

/-! ## Lines -/

/-- Behind white space the line begins with one of the marks. -/
def begins (marks : List String) (line : Text) : Bool :=
  marks.any fun mark => mark.toList.isPrefixOf (trim line)

/-- The marks that begin and end fenced regions. -/
def fences : List String := ["```", "~~~"]

theorem isFence_eq (line : Text) : isFence line = begins fences line := by
  simp [isFence, begins, fences]

theorem isTableRow_eq (line : Text) : isTableRow line = begins ["|"] line := by
  rw [isTableRow, begins, any_cons, any_nil, Bool.or_false, startsBy]
  cases trim line with
  | nil => rfl
  | cons c t => simp [isPrefixOf, eq_comm]

/-- The lines of a text: what stands between line feeds, without a carriage return at the end. -/
def lines (t : Text) : List Text := (List.splitOn '\n' t).map withoutReturn

/-- The line with the given number, counted from 0. -/
def line (t : Text) (i : Nat) : Text := (lines t).getD i []

/-- The byte at which a line begins, behind the lines in front of it and their line ends. -/
def lineStart (t : Text) (i : Nat) : Nat :=
  byteLength (((List.splitOn '\n' t).take i).flatMap (· ++ ['\n']))

/-- The line is too long: it bears no mark, stands outside of fenced regions, and has more
characters than the limit. -/
structure IsOverlong (limit : Nat) (t : Text) (i : Nat) : Prop where
  unmarked : begins (fences ++ ["|"]) (line t i) = false
  outside : Even (((lines t).take i).countP (begins fences))
  long : limit < (line t i).length

theorem isOverlong_iff {limit : Nat} {t : Text} {i : Nat} :
    IsOverlong limit t i ↔ begins (fences ++ ["|"]) (line t i) = false ∧
      Even (((lines t).take i).countP (begins fences)) ∧ limit < (line t i).length :=
  ⟨fun h => ⟨h.unmarked, h.outside, h.long⟩, fun ⟨h, h', h''⟩ => ⟨h, h', h''⟩⟩

instance (limit : Nat) (t : Text) (i : Nat) : Decidable (IsOverlong limit t i) :=
  decidable_of_iff' _ isOverlong_iff

/-- The numbers of the lines that are too long. -/
def overlongLines (limit : Nat) (t : Text) : List Nat :=
  (range (lines t).length).filter fun i => IsOverlong limit t i

/-- The range of what is too long of a line: from the first character past the limit to the end of
the line. -/
def excess (limit : Nat) (t : Text) (i : Nat) : Nat × Nat :=
  (lineStart t i + byteLength ((line t i).take limit), lineStart t i + byteLength (line t i))

/-! ## The search -/

section Search

variable {limit : Nat} {t raw : Text} {front rest : List Text}

theorem lines_eq (cut : List.splitOn '\n' t = front ++ raw :: rest) :
    lines t = front.map withoutReturn ++ withoutReturn raw :: rest.map withoutReturn := by
  rw [lines, cut, map_append, map_cons]

theorem line_eq (cut : List.splitOn '\n' t = front ++ raw :: rest) :
    line t front.length = withoutReturn raw := by
  rw [line, lines_eq cut, getD_append_right _ _ _ _ (by simp)]
  simp

theorem lineStart_eq (cut : List.splitOn '\n' t = front ++ rest) :
    lineStart t front.length = byteLength (front.flatMap (· ++ ['\n'])) := by
  rw [lineStart, cut, take_left]

theorem take_lines (cut : List.splitOn '\n' t = front ++ rest) :
    (lines t).take front.length = front.map withoutReturn := by
  rw [lines, cut, ← map_take, take_left]

/-- What is too long of a line begins behind its first characters. -/
theorem overflow?_toList (limit number start : Nat) (line : Text) :
    ((overflow? limit line).toList.map fun excess =>
      Location.mk ⟨number, limit + 1⟩ (start + byteLength line - byteLength excess)
        (start + byteLength line)) =
      if limit < line.length then
        [⟨⟨number, limit + 1⟩, start + byteLength (line.take limit), start + byteLength line⟩]
      else [] := by
  cases found : overflow? limit line with
  | none =>
    have short : line.drop limit = [] := by
      unfold overflow? at found
      split at found
      · assumption
      · cases found
    rw [if_neg (by simpa using short)]
    rfl
  | some excess =>
    obtain ⟨cut, ne, length⟩ := overflow?_eq_some found
    have sizes := congrArg byteLength cut
    have lengths := congrArg List.length cut
    have long := length_pos_of_ne_nil ne
    rw [byteLength_append] at sizes
    rw [length_append, length] at lengths
    have begin_eq : start + byteLength line - byteLength excess =
        start + byteLength (line.take limit) := by omega
    rw [if_pos (by omega), Option.toList_some, map_singleton, begin_eq]

/-- One step of the search: what it finds on the line, and what it goes on with. -/
theorem overlong_cons (limit number start : Nat) (inFence : Bool) (raw : Text) (rest : List Text) :
    let line := withoutReturn raw
    overlong limit number start inFence (raw :: rest) =
      (if begins (fences ++ ["|"]) line = false ∧ inFence = false ∧ limit < line.length then
        [⟨⟨number, limit + 1⟩, start + byteLength (line.take limit), start + byteLength line⟩]
      else []) ++
        overlong limit (number + 1) (start + byteLength raw + 1)
          (if begins fences line then !inFence else inFence) rest := by
  intro line
  have marks : begins (fences ++ ["|"]) line = (begins fences line || begins ["|"] line) :=
    any_append
  rw [overlong, isFence_eq, isTableRow_eq, marks]
  cases begins fences line with
  | true => rfl
  | false =>
    -- of the lines that are no fences, the rows of tables and what is fenced are passed over
    cases begins ["|"] line with
    | true => cases inFence <;> rfl
    | false =>
      cases inFence with
      | true => rfl
      | false =>
        simp only [overflow?_toList, true_and, Bool.or_false, Bool.false_eq_true, if_false]
        rfl

/-- The search goes on behind the lines in `front`: it knows where the next one begins, and whether
it lies in a fenced region. The induction is on the lines that are left. -/
theorem overlong_eq {inFence : Bool} (cut : List.splitOn '\n' t = front ++ rest)
    (flag : inFence = false ↔ Even ((front.map withoutReturn).countP (begins fences))) :
    overlong limit (front.length + 1) (byteLength (front.flatMap (· ++ ['\n']))) inFence rest =
      ((range' front.length rest.length).filter fun i => IsOverlong limit t i).map fun i =>
        ⟨⟨i + 1, limit + 1⟩, (excess limit t i).1, (excess limit t i).2⟩ := by
  induction rest generalizing front inFence with
  | nil => rfl
  | cons raw rest ih =>
    have longer : List.splitOn '\n' t = (front ++ [raw]) ++ rest := by rw [cut, append_cons]
    have next : byteLength ((front ++ [raw]).flatMap (· ++ ['\n'])) =
        byteLength (front.flatMap (· ++ ['\n'])) + byteLength raw + 1 := by
      rw [flatMap_append, flatMap_singleton, byteLength_append, byteLength_append]
      rfl
    have flag' : (if begins fences (withoutReturn raw) then !inFence else inFence) = false ↔
        Even (((front ++ [raw]).map withoutReturn).countP (begins fences)) := by
      rw [map_append, map_singleton, countP_append, countP_singleton]
      split
      · rw [Nat.even_add_one, ← flag]
        simp
      · exact flag
    -- from here on the line at hand belongs to those in front
    have behind := ih longer flag'
    rw [next, length_append, length_singleton] at behind
    have here : IsOverlong limit t front.length ↔
        begins (fences ++ ["|"]) (withoutReturn raw) = false ∧ inFence = false ∧
          limit < (withoutReturn raw).length := by
      rw [isOverlong_iff, line_eq cut, take_lines cut, flag]
    have found : excess limit t front.length =
        (byteLength (front.flatMap (· ++ ['\n'])) + byteLength ((withoutReturn raw).take limit),
          byteLength (front.flatMap (· ++ ['\n'])) + byteLength (withoutReturn raw)) := by
      rw [excess, line_eq cut, lineStart_eq cut]
    rw [overlong_cons, behind, length_cons, range'_succ, filter_cons]
    by_cases reported : IsOverlong limit t front.length
    · rw [if_pos (here.1 reported), if_pos (decide_eq_true reported), map_cons, found]
      rfl
    · rw [if_neg (mt here.2 reported), if_neg (by simpa using reported), nil_append]

end Search

/-- The search finds the lines that are too long, each once and in their order. -/
theorem locations_eq (limit : Nat) (t : Text) :
    locations limit t = (overlongLines limit t).map fun i =>
      ⟨⟨i + 1, limit + 1⟩, (excess limit t i).1, (excess limit t i).2⟩ := by
  have cut : List.splitOn '\n' t = [] ++ List.splitOn '\n' t := rfl
  have flag : false = false ↔ Even (([].map withoutReturn).countP (begins fences)) := by simp
  rw [locations, splitOn_eq, overlongLines, lines, length_map, range_eq_range']
  exact overlong_eq cut flag

end LineLength

/-- **Line lengths.** The rule reports the lines that are too long, each once and in their order.
Each report is about the characters behind the limit, at the position that they have in the text. -/
theorem Rule.check_lineLength (s : Subject) (strict : s.tier = .strict) :
    let limit := s.settings.maxLineLength
    let excess (i : Nat) := LineLength.excess limit s.text i
    Rule.lineLength.check s =
        ((LineLength.overlongLines limit s.text).map fun i =>
          ⟨"line-length", .error, some (Location.ofRange s.text (excess i).1 (excess i).2),
            s!"Lines must be ≤ {limit} characters in LLM-facing files".toList⟩) ∧
      ∀ i ∈ LineLength.overlongLines limit s.text,
        s.text.IsStretch (excess i).1 (excess i).2 ∧
          Position.ofOffset s.text (excess i).1 = ⟨i + 1, limit + 1⟩ := by
  intro limit excess
  have located := LineLength.locates_locations limit s.text
  rw [LineLength.locations_eq] at located
  have position : ∀ i ∈ LineLength.overlongLines limit s.text,
      (⟨⟨i + 1, limit + 1⟩, (excess i).1, (excess i).2⟩ : Location) =
        Location.ofRange s.text (excess i).1 (excess i).2 := fun i hi =>
    located.position _ (mem_map_of_mem hi)
  refine ⟨?_, fun i hi => ⟨located.stretch _ (mem_map_of_mem hi), ?_⟩⟩
  · rw [Rule.check_eq strict, Rule.findings, Rule.lineLengthFindings, LineLength.locations_eq,
      map_map, map_map]
    refine map_congr_left fun i hi => ?_
    rw [← position i hi]
    rfl
  · exact (congrArg Location.position (position i hi)).symm

/-- A line of characters of several bytes, a fenced region, a table row and a last line without a
line end. -/
theorem Rule.check_lineLength_fenced :
    let t := "é✅abcd\r\n```\nlonger\n```\n|long row\nabcde".toList
    let settings : Settings := { Settings.standard with
      tiers := ⟨["a.md".toList], [], []⟩
      maxLineLength := 4 }
    ∃ l tree, Linter.build settings [] = .ok l ∧ Document.parse t = .ok tree ∧
      l.classify "a.md".toList = .strict ∧
      (Rule.lineLength.check (l.subject "a.md".toList t tree)).map
          (fun d => d.location?.map fun l => (l.position, l.start, l.stop)) =
        [some (⟨1, 5⟩, 7, 9), some (⟨6, 5⟩, 40, 41)] := by
  intro t settings
  obtain ⟨l, built, same, -, strict⟩ := Linter.exists_build_strict settings rfl
  have parsed : (Document.parse t).isOk = true := by decide +kernel
  obtain ⟨tree, found⟩ := exists_of_isOk parsed
  have limit : (l.subject "a.md".toList t tree).settings.maxLineLength = 4 :=
    congrArg Settings.maxLineLength same
  have checked := (Rule.check_lineLength (l.subject "a.md".toList t tree) strict).1
  rw [limit] at checked
  refine ⟨l, tree, built, found, strict, ?_⟩
  rw [checked, map_map]
  show (LineLength.overlongLines 4 t).map (fun i =>
    some (Position.ofOffset t (LineLength.excess 4 t i).1, LineLength.excess 4 t i)) = _
  decide +kernel

end TierLint
