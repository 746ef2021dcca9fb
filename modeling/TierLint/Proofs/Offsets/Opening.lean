import TierLint.Block.AtxHeading
import TierLint.Block.FencedCode
import TierLint.Block.Html
import TierLint.Block.Quote
import TierLint.Block.ThematicBreak
import TierLint.Proofs.Offsets.Line

/-!
# What opens a block, by byte offsets

The tests that tell from a line's content which block it opens, with the cuts and differences that
they make. The length of what trimming removes is a difference of two lengths; runs of backticks,
hashes and blanks are counted in characters or bytes, and the content is cut behind them.

Runs of ASCII characters are as long in bytes as in characters, so no cut fails, and the tests come
out as those on lines (`fenceOpen_eq`, `closesFence_raw`, `headingLevel_eq`, `isThematicBreak_eq`,
`quoteMarker_raw`, `startsHtml_eq`).
-/

set_option autoImplicit false

namespace TierLint.Offsets

open Text

variable {t u v : Text}

/-! ## Trimming and runs -/

/-- Number of bytes that trimming removes at the start. -/
def trimmedLength (t : Text) : Except Fault Nat := minus (byteLength t) (byteLength (trimStart t))

theorem trimmedLength_eq (t : Text) :
    trimmedLength t = .ok (byteLength (t.takeWhile Unicode.isWhiteSpace)) := by
  refine minus_of_eq ?_
  rw [← byteLength_append, trimStart, List.takeWhile_append_dropWhile]

/-- Cuts behind a run of an ASCII character. -/
theorem sliceFrom_runLength {c : Char} (h : c.toNat < 128) (t : Text) :
    sliceFrom t (runLength c t) = .ok (afterRun c t) :=
  sliceFrom_of_eq (replicate_runLength_append_afterRun c t).symm (byteLength_replicate h _).symm

theorem sliceTo_runLength {c : Char} (h : c.toNat < 128) (t : Text) :
    sliceTo t (runLength c t) = .ok (List.replicate (runLength c t) c) :=
  sliceTo_of_eq (replicate_runLength_append_afterRun c t).symm (byteLength_replicate h _).symm

/-! ## Fences -/

/-- The number of characters `c` at the start of the text, if there are any. -/
def fenceCount (t : Text) (c : Char) : Option Nat :=
  if 0 < runLength c t then some (runLength c t) else none

/-- A run of `count` characters `c` is a fence. -/
def checkFence (t : Text) (c : Char) (count : Nat) : Except Fault (Option (Char × Nat)) :=
  if count < 3 then .ok none
  else if c == '`' then do
    let info ← sliceFrom t count
    if info.contains '`' then .ok none else .ok (some (c, count))
  else .ok (some (c, count))

/-- The fence at the start of the text: its character and its length. -/
def fenceOpen (t : Text) : Except Fault (Option (Char × Nat)) :=
  match fenceCount t '`' with
  | some count => checkFence t '`' count
  | none =>
    match fenceCount t '~' with
    | some count => checkFence t '~' count
    | none => .ok none

/-- The line closes a block that `count` characters `c` opened. -/
def closesFence (c : Char) (count : Nat) (l : RawLine) : Except Fault Bool := do
  if 3 < (← l.indent) then .ok false
  else
    let t := trimStart (← l.content)
    match fenceCount t c with
    | some run => if count ≤ run then do .ok (trim (← sliceFrom t run)).isEmpty else .ok false
    | none => .ok false

theorem fenceCount_cons_self (c : Char) (t : Text) :
    fenceCount (c :: t) c = some (1 + runLength c t) := by
  rw [fenceCount, runLength_cons_self, if_pos (by omega)]

theorem fenceCount_cons_of_ne {c d : Char} (h : d ≠ c) (t : Text) :
    fenceCount (d :: t) c = none := by
  rw [fenceCount, runLength_cons_of_ne h]
  rfl

/-- A run of backticks or tildes is a fence where the line is tested to open one. -/
theorem checkFence_eq {c : Char} (hc : c = '`' ∨ c = '~') (t : Text) :
    checkFence (c :: t) c (1 + runLength c t) =
      .ok ((Fence.open? (c :: t)).map fun f => (f.mark, f.length)) := by
  have ascii : c.toNat < 128 := by rcases hc with rfl | rfl <;> decide
  have mark : (c == '`' || c == '~') = true := by rcases hc with rfl | rfl <;> rfl
  have cut := sliceFrom_runLength ascii (c :: t)
  rw [runLength_cons_self, afterRun_cons_self] at cut
  rw [checkFence, Fence.open?, mark, Bool.true_and]
  by_cases short : 1 + runLength c t < 3
  · -- fewer than three characters
    have refused : decide (3 ≤ 1 + runLength c t) = false := decide_eq_false (by omega)
    rw [if_pos short, refused]
    rfl
  · have long : decide (3 ≤ 1 + runLength c t) = true := decide_eq_true (by omega)
    rw [if_neg short, long, Bool.true_and]
    cases tick : c == '`' with
    | false => rfl
    | true =>
      -- Only behind backticks is the info string looked at.
      rw [if_pos rfl, cut, ok_bind, Bool.true_and]
      cases (afterRun c t).contains '`' <;> rfl

/-- The fence is found that the line is tested for. -/
theorem fenceOpen_eq (t : Text) :
    fenceOpen t = .ok ((Fence.open? t).map fun f => (f.mark, f.length)) := by
  cases t with
  | nil => rfl
  | cons c rest =>
    by_cases tick : c = '`'
    · subst tick
      rw [fenceOpen, fenceCount_cons_self]
      exact checkFence_eq (.inl rfl) rest
    · by_cases tilde : c = '~'
      · subst tilde
        rw [fenceOpen, fenceCount_cons_of_ne tick, fenceCount_cons_self]
        exact checkFence_eq (.inr rfl) rest
      · rw [fenceOpen, fenceCount_cons_of_ne tick, fenceCount_cons_of_ne tilde]
        simp [Fence.open?, tick, tilde]

/-- A fence has a character that is ASCII, and has it at least once. -/
theorem ascii_of_open? {f : Fence} (h : Fence.open? t = some f) :
    f.mark.toNat < 128 ∧ 0 < f.length := by
  cases t with
  | nil => cases h
  | cons c rest =>
    rw [Fence.open?] at h
    split at h
    · rename_i allowed
      cases h
      simp only [Bool.and_eq_true, Bool.or_eq_true, beq_iff_eq] at allowed
      have ascii : c.toNat < 128 := by rcases allowed.1.1 with rfl | rfl <;> decide
      exact ⟨ascii, Nat.lt_of_lt_of_le Nat.one_pos (Nat.le_add_right ..)⟩
    · cases h

/-- A line closes a fence where the reader says so; the cut behind the run does not fail. -/
theorem closesFence_raw {f : Fence} (ascii : f.mark.toNat < 128) (pos : 0 < f.length) (p : Placed) :
    closesFence f.mark f.length p.raw = .ok (f.closedBy p.line) := by
  rw [closesFence, p.indent_raw, ok_bind, Fence.closedBy]
  by_cases deep : 3 < p.line.indent
  · -- indented too far
    have no : decide (p.line.indent ≤ 3) = false := decide_eq_false (by omega)
    rw [if_pos deep, no]
    rfl
  · have yes : decide (p.line.indent ≤ 3) = true := decide_eq_true (by omega)
    rw [if_neg deep, p.content_raw, ok_bind, yes, Bool.true_and]
    simp only [fenceCount]
    by_cases any : 0 < runLength f.mark (trimStart p.line.content)
    · rw [if_pos any]
      simp only
      by_cases long : f.length ≤ runLength f.mark (trimStart p.line.content)
      · rw [if_pos long, sliceFrom_runLength ascii, ok_bind, isEmpty_trim, decide_eq_true long,
          Bool.true_and]
      · rw [if_neg long, decide_eq_false long, Bool.false_and]
    · -- No run is too short as well, since a fence has at least one character.
      have short : ¬ f.length ≤ runLength f.mark (trimStart p.line.content) := by omega
      rw [if_neg any, decide_eq_false short, Bool.false_and]

/-! ## Headings and thematic breaks -/

/-- The level of the heading that the text is. -/
def headingLevel (t : Text) : Except Fault (Option Nat) := do
  if 3 < (← trimmedLength t) then .ok none
  else
    let count := runLength '#' (trimStart t)
    if count = 0 || 6 < count then .ok none
    else
      let behind ← sliceFrom (trimStart t) count
      if !behind.isEmpty && !startsBy (· == ' ') behind && !startsBy (· == '\t') behind then
        .ok none
      else .ok (some count)

/-- The text is a thematic break. -/
def isThematicBreak (t : Text) : Except Fault Bool := do
  if 3 < (← trimmedLength t) then .ok false
  else
    match trimStart t with
    | [] => .ok false
    | c :: rest =>
      if !(c == '-' || c == '*' || c == '_') then .ok false
      else if (c :: rest).any fun d => d != c && d != ' ' && d != '\t' then .ok false
      else .ok (3 ≤ (c :: rest).count c)

theorem startsBy_isIndentChar (t : Text) :
    startsBy isIndentChar t = (startsBy (· == ' ') t || startsBy (· == '\t') t) := by
  cases t <;> rfl

/-- A text is a heading of the level that the reader finds. -/
theorem headingLevel_eq (t : Text) : headingLevel t = .ok (AtxHeading.level? t) := by
  rw [headingLevel, trimmedLength_eq, ok_bind, AtxHeading.level?]
  by_cases wide : 3 < byteLength (t.takeWhile Unicode.isWhiteSpace)
  · rw [if_pos wide, decide_eq_false (Nat.not_le.2 wide)]
    rfl
  rw [if_neg wide, decide_eq_true (Nat.not_lt.1 wide), Bool.true_and]
  by_cases many : runLength '#' (trimStart t) = 0 ∨ 6 < runLength '#' (trimStart t)
  · -- no hash, or too many of them
    have refused : (decide (1 ≤ runLength '#' (trimStart t)) &&
        decide (runLength '#' (trimStart t) ≤ 6)) = false := by
      rw [Bool.and_eq_false_iff, decide_eq_false_iff_not, decide_eq_false_iff_not]
      omega
    rw [if_pos (by simpa using many), refused]
    rfl
  · have accepted : (decide (1 ≤ runLength '#' (trimStart t)) &&
        decide (runLength '#' (trimStart t) ≤ 6)) = true := by
      rw [Bool.and_eq_true, decide_eq_true_eq, decide_eq_true_eq]
      omega
    rw [if_neg (by simpa using many), sliceFrom_runLength (by decide), ok_bind, accepted,
      Bool.true_and, startsBy_isIndentChar]
    -- What stands behind the hashes is tested in the same three ways on both sides.
    cases (afterRun '#' (trimStart t)).isEmpty <;>
      cases startsBy (· == ' ') (afterRun '#' (trimStart t)) <;>
      cases startsBy (· == '\t') (afterRun '#' (trimStart t)) <;> rfl

/-- A text is a thematic break where the reader says so. -/
theorem isThematicBreak_eq (t : Text) : isThematicBreak t = .ok (ThematicBreak.isBreak t) := by
  rw [isThematicBreak, trimmedLength_eq, ok_bind, ThematicBreak.isBreak]
  by_cases wide : 3 < byteLength (t.takeWhile Unicode.isWhiteSpace)
  · rw [if_pos wide, decide_eq_false (Nat.not_le.2 wide)]
    cases trimStart t <;> rfl
  rw [if_neg wide, decide_eq_true (Nat.not_lt.1 wide)]
  cases trimStart t with
  | nil => rfl
  | cons c rest =>
    have separators : ((c :: rest).any fun d => d != c && d != ' ' && d != '\t') =
        !rest.all fun d => d == c || isIndentChar d := by
      simp [isIndentChar, List.not_all_eq_any_not, bne, Bool.and_assoc]
    have count : (c :: rest).count c = 1 + rest.count c := by
      rw [List.count_cons_self, Nat.add_comm]
    simp only [separators, count]
    cases c == '-' || c == '*' || c == '_' <;>
      cases rest.all fun d => d == c || isIndentChar d <;> rfl

/-! ## Quote markers and raw HTML -/

/-- The length of the quote marker of a line, with its indentation and the blank behind it. -/
def quoteMarker (l : RawLine) : Except Fault (Option Nat) := do
  let indent ← l.indent
  if 3 < indent then .ok none
  else
    match ← sliceFrom (← l.content) indent with
    | '>' :: rest => .ok (some (indent + 1 + if startsBy isIndentChar rest then 1 else 0))
    | _ => .ok none

/-- The text begins with a letter and a name that no colon follows. -/
def startsTag (name : Text) : Except Fault Bool :=
  let length := (find? (!Html.isNameChar ·) name).getD (byteLength name)
  if length = 0 || !startsBy Char.isAlpha name then .ok false
  else do
    let behind ← sliceFrom name length
    .ok (!startsBy (· == ':') behind)

/-- The text begins raw HTML. -/
def startsHtml (t : Text) : Except Fault Bool :=
  match t with
  | '<' :: c :: rest =>
    if c == '!' || c == '?' then .ok true
    else startsTag (if c == '/' then rest else c :: rest)
  | _ => .ok false

/-- The marker of a quoted line is as long as the reader says; other lines have none. -/
theorem quoteMarker_raw (p : Placed) :
    quoteMarker p.raw =
      .ok (if Quote.isQuoted p.line then some (Quote.markerLength p.line) else none) := by
  rw [quoteMarker, p.indent_raw, ok_bind, Quote.isQuoted]
  by_cases deep : 3 < p.line.indent
  · rw [if_pos deep, decide_eq_false (Nat.not_le.2 deep)]
    rfl
  rw [if_neg deep, decide_eq_true (Nat.not_lt.1 deep), Bool.true_and, p.content_raw, ok_bind,
    Line.indent, slice_unindented, ok_bind, Quote.markerLength]
  cases unindented p.line.content with
  | nil => rfl
  | cons c rest =>
    by_cases hc : c = '>'
    · subst hc
      rfl
    · have no : startsBy (· == '>') (c :: rest) = false := by simpa [startsBy] using hc
      rw [no]
      split
      · rename_i h
        exact absurd (List.cons.inj h).1 hc
      · rfl

/-- A text that begins with a letter begins with a name. -/
theorem byteLength_name_pos (h : startsBy Char.isAlpha t = true) :
    0 < byteLength (t.takeWhile Html.isNameChar) := by
  cases t with
  | nil => cases h
  | cons c t =>
    have name : Html.isNameChar c = true := by
      have alpha : c.isAlpha = true := h
      rw [Html.isNameChar, Char.isAlphanum, alpha]
      rfl
    have pos := c.utf8Size_pos
    rw [List.takeWhile_cons_of_pos name, byteLength_cons]
    omega

theorem startsTag_eq (t : Text) : startsTag t = .ok (Html.startsTag t) := by
  have split : t = t.takeWhile Html.isNameChar ++ t.dropWhile Html.isNameChar :=
    List.takeWhile_append_dropWhile.symm
  rw [startsTag, find?_eq, Html.startsTag]
  simp only [Bool.not_not]
  cases letter : startsBy Char.isAlpha t with
  | false => simp
  | true =>
    have nonempty : byteLength (t.takeWhile Html.isNameChar) ≠ 0 := by
      have pos := byteLength_name_pos letter
      omega
    rw [decide_eq_false nonempty, sliceFrom_of_eq split rfl]
    rfl

/-- Behind `<`, what is neither a declaration nor a closing tag has to be an opening tag. -/
theorem startsBlock_of_ne {c : Char} (bang : c ≠ '!') (question : c ≠ '?') (slash : c ≠ '/')
    (t : Text) : Html.startsBlock ('<' :: c :: t) = Html.startsTag (c :: t) := by
  unfold Html.startsBlock
  split
  · rename_i h
    cases h
    exact absurd rfl bang
  · rename_i h
    cases h
    exact absurd rfl question
  · rename_i h
    cases h
    exact absurd rfl slash
  · rename_i h
    cases h
    rfl
  · rename_i h
    exact absurd rfl (h _)

/-- A text begins raw HTML where the reader says so. -/
theorem startsHtml_eq (t : Text) : startsHtml t = .ok (Html.startsBlock t) := by
  cases t with
  | nil => rfl
  | cons d t =>
    by_cases hd : d = '<'
    · subst hd
      cases t with
      | nil => rfl
      | cons c rest =>
        rw [startsHtml]
        by_cases bang : c = '!'
        · subst bang
          rfl
        by_cases question : c = '?'
        · subst question
          rfl
        have other : (c == '!' || c == '?') = false := by simp [bang, question]
        rw [other]
        by_cases slash : c = '/'
        · subst slash
          exact startsTag_eq rest
        · have name : (c == '/') = false := by simpa using slash
          rw [name, startsBlock_of_ne bang question slash]
          exact startsTag_eq _
    · simp [startsHtml, Html.startsBlock, hd]

end TierLint.Offsets
