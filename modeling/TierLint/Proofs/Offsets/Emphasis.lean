import TierLint.Inline.Emphasis
import TierLint.Proofs.Offsets.CodeSpan

/-!
# Emphasis by byte offsets

The scanner looks at the byte in front of the delimiters, counts them, and searches the closing ones
from byte to byte. Two bytes behind a backslash it can be inside a character, but all that it looks
for is ASCII, so that it finds its way out again. It never fails, and finds the emphasis that the
reader finds (`emphasis_eq`).
-/

set_option autoImplicit false

namespace TierLint.Offsets

open Text Unicode

variable {t u v w : Text}

/-- Looks for the delimiters `d` that close emphasis whose content begins at `start`, and whose
delimiters come in runs of `level`. Found is the offset of the closing ones. -/
def findCloserStep (t : Text) (start : Nat) (d : Char) (level : Nat) (_ : Unit) (pos : Nat) :
    Except Fault (Next Unit (Option Nat)) := do
  let b ← byteAt t pos
  if b = code '\\' then
    .ok (.go () (pos + 2))
  else if b = code '`' then
    match ← codeSpan (← sliceFrom t pos) with
    | some (length, _, _) => .ok (.go () (pos + length))
    | none => .ok (.go () (pos + (← runAt t pos '`')))
  else if b ≠ code d then
    .ok (.go () (pos + 1))
  else
    let run ← runAt t pos d
    let after ← sliceFrom t (pos + run)
    let before ← sliceTo t pos
    let canClose := start < pos && before.getLast?.any (!isWhiteSpace ·)
      && !(d == '_' && startsBy isAlphanumeric after)
    let fits := if level = 1 then run == 1 else 2 ≤ run
    if canClose && fits then .ok (.stop (some (← minus (pos + run) level)))
    else .ok (.go () (pos + run))

/-- The offset of the closing delimiters. -/
def findCloser (t : Text) (start : Nat) (d : Char) (level : Nat) : Except Fault (Option Nat) :=
  scan (findCloserStep t start d level) (fun _ _ => .ok none) (byteLength t) () start

/-- The character at the end of `u`, if it is behind byte `start`. -/
def lastBehind (start : Nat) (u : Text) : Option Char :=
  if start < byteLength u then u.getLast? else none

theorem lastBehind_append {start : Nat} {w : Text} {c : Char} (h : start ≤ byteLength u)
    (hw : w.getLast? = some c) : lastBehind start (u ++ w) = some c := by
  obtain ⟨front, rfl⟩ := List.getLast?_eq_some_iff.1 hw
  have pos := c.utf8Size_pos
  rw [lastBehind, if_pos, ← List.append_assoc, List.getLast?_concat]
  simp only [byteLength_append, byteLength_cons]
  omega

theorem width_le_of_closes {d : Char} {strong : Bool} {before : Option Char} {run : Nat}
    (h : Emphasis.closes d strong before run v = true) : Emphasis.width strong ≤ run := by
  simp only [Emphasis.closes, Bool.and_eq_true] at h
  cases strong with
  | true => exact of_decide_eq_true h.2
  | false => exact Nat.le_of_eq (eq_of_beq h.2).symm

section

variable {d : Char} (hd : d = '*' ∨ d = '_') (start level : Nat)
include hd

theorem skips_findCloserStep (t : Text) :
    Skips t ['\\', '`', d] (findCloserStep t start d level) where
  ascii := by
    rcases hd with rfl | rfl <;> exact ascii_of_all rfl
  skip _ n b at_ other := by
    have esc := other '\\' (by simp)
    have tick := other '`' (by simp)
    have delim := other d (by simp)
    rw [findCloserStep, at_, ok_bind, if_neg esc, if_neg tick, if_pos delim]

omit hd in
theorem findCloserStep_escape (ht : t = u ++ '\\' :: v) :
    findCloserStep t start d level () (byteLength u) = .ok (.go () (byteLength u + 2)) := by
  rw [findCloserStep, ht, byteAt_of_lt (by decide), ok_bind, if_pos rfl]

omit hd in
theorem findCloserStep_tick (ht : t = u ++ '`' :: v) :
    findCloserStep t start d level () (byteLength u) =
      .ok (.go () (byteLength u + match CodeSpan.read? ('`' :: v) with
        | some (s, _) => byteLength s.source
        | none => 1 + runLength '`' v)) := by
  rw [findCloserStep, ht, byteAt_of_lt (by decide), ok_bind, if_neg (by decide), if_pos rfl,
    sliceFrom_append, ok_bind, codeSpan_eq, ok_bind]
  cases CodeSpan.read? ('`' :: v) with
  | some found => rfl
  | none =>
    simp only [Option.map_none]
    rw [runAt_append (by decide), length_takeWhile_cons_self]
    rfl

theorem findCloserStep_delimiter {strong : Bool} (hl : level = Emphasis.width strong)
    (ht : t = u ++ d :: v) :
    findCloserStep t start d level () (byteLength u) =
      if Emphasis.closes d strong (lastBehind start u) (1 + runLength d v) (afterRun d v) then
        .ok (.stop (some (byteLength u + (1 + runLength d v - level))))
      else .ok (.go () (byteLength u + (1 + runLength d v))) := by
  have ascii : d.toNat < 128 := by rcases hd with rfl | rfl <;> decide
  have noEsc : code d ≠ code '\\' := by rcases hd with rfl | rfl <;> decide
  have noTick : code d ≠ code '`' := by rcases hd with rfl | rfl <;> decide
  -- the run at the place and what follows it can be cut out
  have behind : t = u ++ List.replicate (1 + runLength d v) d ++ afterRun d v := by
    rw [ht, cons_eq_replicate_append_afterRun, List.append_assoc]
  have length : byteLength u + (1 + runLength d v) =
      byteLength (u ++ List.replicate (1 + runLength d v) d) := by
    rw [byteLength_append, byteLength_replicate ascii]
  -- the two tests agree
  have before : (decide (start < byteLength u) && u.getLast?.any (!isWhiteSpace ·)) =
      (lastBehind start u).any (!isWhiteSpace ·) := by
    rw [lastBehind]
    split <;> simp [*]
  have fits : (if level = 1 then 1 + runLength d v == 1 else decide (2 ≤ 1 + runLength d v)) =
      if strong then decide (2 ≤ 1 + runLength d v) else 1 + runLength d v == 1 := by
    cases strong <;> simp [hl, Emphasis.width]
  rw [findCloserStep, ht, byteAt_of_lt ascii, ok_bind, if_neg noEsc, if_neg noTick,
    if_neg (fun other => other rfl), runAt_append ascii, length_takeWhile_cons_self, ok_bind, ← ht,
    sliceFrom_of_eq behind length, ok_bind, sliceTo_of_eq ht rfl, ok_bind]
  simp only [before, fits]
  change (if Emphasis.closes d strong (lastBehind start u) _ _ = true then _ else _) = _
  split
  · -- a run that closes is long enough, so the difference is not negative
    rename_i closes
    have wide := width_le_of_closes closes
    rw [minus_of_eq (k := byteLength u + (1 + runLength d v - level)) (by omega)]
    rfl
  · rfl

/-- The search for closing delimiters finds what the reader finds. -/
theorem scan_findCloser {strong : Bool} (hl : level = Emphasis.width strong) {before : Option Char}
    (ht : t = u ++ v) (hs : start ≤ byteLength u) (hb : before = lastBehind start u) :
    scan (findCloserStep t start d level) (fun _ _ => .ok none) (byteLength t) () (byteLength u) =
      .ok (endOf u (Emphasis.closing? d strong before v)) := by
  have skips := skips_findCloserStep hd start level t
  have ascii : d.toNat < 128 := by rcases hd with rfl | rfl <;> decide
  -- what is read in one go, and where the search goes on behind it
  have further : ∀ {u w : Text}, start ≤ byteLength u → start ≤ byteLength (u ++ w) := by
    intro u w h
    rw [byteLength_append]
    omega
  -- along the recursion of the reader; `u` is what the loop has passed
  fun_induction Emphasis.closing? d strong before v generalizing u with
  | case1 =>
    -- the end of the text
    rw [scan_end (Nat.le_of_eq (by rw [ht, List.append_nil]))]
    rfl
  | case2 =>
    -- a backslash at the end
    rw [scan_escaped_end ht (findCloserStep_escape start level ht)]
    rfl
  | case3 before c rest ih =>
    -- an escaped character
    rw [skips.scan_escaped ht (findCloserStep_escape start level ht), endOf_prependTo]
    exact ih (by rw [ht, List.append_assoc]; rfl) (further hs) (lastBehind_append hs rfl).symm
  | case4 before rest span after found ih =>
    -- a code span
    have split : t = u ++ span.source ++ after := by
      rw [ht, CodeSpan.eq_of_read? found, List.append_assoc]
    have step := findCloserStep_tick (d := d) start level ht
    rw [found] at step
    rw [scan_past split rfl (byteLength_source_pos found) step, endOf_prependTo]
    exact ih split (further hs) (lastBehind_append hs (CodeSpan.getLast?_source found)).symm
  | case5 before rest found ih =>
    -- backticks that open no code span
    have split : t = u ++ List.replicate (1 + runLength '`' rest) '`' ++ afterRun '`' rest := by
      rw [ht, cons_eq_replicate_append_afterRun, List.append_assoc]
    have step := findCloserStep_tick (d := d) start level ht
    rw [found] at step
    rw [scan_past split (byteLength_replicate (by decide) _) (by omega) step, endOf_prependTo]
    exact ih split (further hs) (lastBehind_append hs (getLast?_run ..)).symm
  | case6 before rest run after =>
    -- a run that closes
    rename_i closes _ _ _
    have step := findCloserStep_delimiter hd start level hl ht
    rw [if_pos (hb ▸ closes)] at step
    rw [scan_stop (byteLength_lt_of_cons ht) step, endOf, Option.map_some]
    simp only [byteLength_append, byteLength_replicate ascii, hl, run]
  | case7 before rest run after open_ =>
    -- a run that does not close
    rename_i _ _ _ ih
    have split : t = u ++ List.replicate run d ++ after := by
      rw [ht, cons_eq_replicate_append_afterRun, List.append_assoc]
    have step := findCloserStep_delimiter hd start level hl ht
    rw [if_neg (hb ▸ open_)] at step
    rw [scan_past split (byteLength_replicate ascii _) (by omega) step, endOf_prependTo]
    exact ih split (further hs) (lastBehind_append hs (getLast?_run ..)).symm
  | case8 before c rest =>
    -- any other character
    rename_i noEnd noEsc noTick noDelim ih
    rw [skips.scan_other ht ?_ (), endOf_prependTo]
    · exact ih (by rw [ht, List.append_assoc]; rfl) (further hs) (lastBehind_append hs rfl).symm
    · simp only [List.mem_cons, List.not_mem_nil, or_false]
      rintro (rfl | rfl | rfl)
      · exact ne_backslash_of_cons noEnd noEsc rfl
      · exact noTick rfl
      · exact noDelim rfl

end

/-- The byte in front of `pos` is the delimiter `d`. -/
def isRepeated (t : Text) (pos : Nat) (d : Char) : Except Fault Bool :=
  if 0 < pos then do
    let last ← minus pos 1
    let b ← byteAt t last
    .ok (b == code d)
  else .ok false

/-- The emphasis with delimiters `d` at offset `pos`: its length, the length of its opening
delimiters, and the offset of the closing ones from `pos`. -/
def emphasis (t : Text) (pos : Nat) (d : Char) : Except Fault (Option (Nat × Nat × Nat)) := do
  if ← isRepeated t pos d then .ok none
  else
    let before ← sliceTo t pos
    if d == '_' && before.getLast?.any isAlphanumeric then .ok none
    else
      let run ← runAt t pos d
      let level := if run = 1 then 1 else 2
      let inner ← sliceFrom t (pos + level)
      if startsBy (!isWhiteSpace ·) inner then
        match ← findCloser t (pos + level) d level with
        | some close => .ok (some (← minus (close + level) pos, level, ← minus close pos))
        | none => .ok none
      else .ok none

/-- The last byte is an ASCII character if and only if the last character is. -/
theorem isRepeated_append {d : Char} (hd : d.toNat < 128) (u v : Text) :
    isRepeated (u ++ v) (byteLength u) d = .ok (u.getLast? == some d) := by
  rcases List.eq_nil_or_concat u with rfl | ⟨front, c, rfl⟩
  · rfl
  · have size := c.utf8Size_pos
    have whole : byteLength (front.concat c) = byteLength front + c.utf8Size := by simp
    obtain ⟨b, mem, at_⟩ := byteAt_inside (u := front) (v := v) (c := c)
      (n := byteLength front + c.utf8Size - 1) (by omega) (by omega)
    rw [isRepeated, whole, if_pos (by omega), minus_of_eq (k := byteLength front + c.utf8Size - 1)
      (by omega), ok_bind, List.concat_eq_append, List.append_assoc, List.singleton_append, at_,
      ok_bind, List.getLast?_concat]
    congr 1
    rw [Bool.eq_iff_iff, beq_iff_eq, beq_iff_eq, Option.some_inj, eq_code_iff hd mem]

/-- Emphasis is strong if a second delimiter follows the first one. -/
theorem level_eq_width {d : Char} {strong : Bool} (h : startsBy (· == d) v = strong) :
    (if 1 + runLength d v = 1 then 1 else 2) = Emphasis.width strong := by
  subst h
  cases v with
  | nil => rfl
  | cons c v =>
    by_cases hc : c = d
    · simp [runLength, startsBy, Emphasis.width, hc]
    · simp [runLength, startsBy, Emphasis.width, hc]

theorem opening_append_drop {d : Char} {strong : Bool} (h : startsBy (· == d) v = strong) :
    d :: v = List.replicate (Emphasis.width strong) d ++ (d :: v).drop (Emphasis.width strong) := by
  subst h
  cases v with
  | nil => rfl
  | cons c v =>
    by_cases hc : c = d
    · simp [startsBy, Emphasis.width, hc, List.replicate_succ]
    · simp [startsBy, Emphasis.width, hc]

/-- The lengths of emphasis and of its marker. -/
theorem byteLength_emphasis {e : Emphasis} (ascii : e.delimiter.toNat < 128) :
    byteLength e.marker = Emphasis.width e.strong ∧
      byteLength (e.marker ++ e.content) + Emphasis.width e.strong = byteLength e.source := by
  have marker : byteLength e.marker = Emphasis.width e.strong := byteLength_replicate ascii _
  refine ⟨marker, ?_⟩
  rw [Emphasis.source, byteLength_append, byteLength_append, byteLength_append, marker]

/-- The scanner for emphasis finds what the reader finds. -/
theorem emphasis_eq {d : Char} (hd : d = '*' ∨ d = '_') (ht : t = u ++ d :: v) :
    emphasis t (byteLength u) d = .ok ((Emphasis.read? u.getLast? (d :: v)).map fun (e, _) =>
      (byteLength e.source, Emphasis.width e.strong, byteLength (e.marker ++ e.content))) := by
  have ascii : d.toNat < 128 := by rcases hd with rfl | rfl <;> decide
  have isDelimiter : (d == '*' || d == '_') = true := by rcases hd with rfl | rfl <;> rfl
  have cut : sliceTo t (byteLength u) = .ok u := sliceTo_of_eq ht rfl
  have repeated : isRepeated t (byteLength u) d = .ok (u.getLast? == some d) :=
    ht ▸ isRepeated_append ascii u (d :: v)
  rw [emphasis, repeated, ok_bind, Emphasis.read?, Emphasis.mayOpen, isDelimiter, Bool.true_and]
  -- a run opens nothing behind its own character, nor, if it is an underscore, inside a word
  by_cases same : (u.getLast? == some d) = true
  · rw [if_pos same, bne, same]
    rfl
  rw [if_neg same, cut, ok_bind, bne, Bool.eq_false_iff.2 same, Bool.not_false, Bool.true_and]
  by_cases word : (d == '_' && u.getLast?.any isAlphanumeric) = true
  · rw [if_pos word, word]
    rfl
  rw [if_neg word, Bool.eq_false_iff.2 word, Bool.not_false, Bool.true_and]
  -- two or more make strong emphasis
  obtain ⟨strong, hs⟩ : ∃ strong, startsBy (· == d) v = strong := ⟨_, rfl⟩
  have run : runAt t (byteLength u) d = .ok (1 + runLength d v) := by
    rw [ht, runAt_append ascii, length_takeWhile_cons_self]
  have level : (if 1 + runLength d v = 1 then 1 else 2) = Emphasis.width strong :=
    level_eq_width hs
  have opening : d :: v = List.replicate (Emphasis.width strong) d ++
      (d :: v).drop (Emphasis.width strong) := opening_append_drop hs
  obtain ⟨inner, hi⟩ : ∃ inner, (d :: v).drop (Emphasis.width strong) = inner := ⟨_, rfl⟩
  rw [hi] at opening
  have behind : t = u ++ List.replicate (Emphasis.width strong) d ++ inner := by
    rw [ht, opening, List.append_assoc]
  have start := byteLength_add_replicate ascii u (Emphasis.width strong)
  rw [run, ok_bind]
  simp only [level, hs, hi]
  rw [sliceFrom_of_eq behind start, ok_bind]
  by_cases opens : startsBy (!isWhiteSpace ·) inner = true
  · have first : none = lastBehind (byteLength u + Emphasis.width strong)
        (u ++ List.replicate (Emphasis.width strong) d) := by
      rw [lastBehind, start, if_neg (Nat.lt_irrefl _)]
    have search := scan_findCloser hd (byteLength u + Emphasis.width strong)
      (Emphasis.width strong) rfl behind (Nat.le_of_eq start) first
    rw [← start] at search
    rw [if_pos opens, if_pos opens, findCloser, search, ok_bind]
    cases Emphasis.closing? d strong none inner with
    | none => rfl
    | some found =>
      obtain ⟨content, rest⟩ := found
      obtain ⟨e, he⟩ : ∃ e : Emphasis, e = ⟨d, strong, content⟩ := ⟨_, rfl⟩
      obtain ⟨marker, whole⟩ : byteLength e.marker = Emphasis.width strong ∧
          byteLength (e.marker ++ content) + Emphasis.width strong = byteLength e.source := by
        rw [he]
        exact byteLength_emphasis ascii
      -- the closing run begins behind the content
      have close : byteLength (u ++ List.replicate (Emphasis.width strong) d ++ content) =
          byteLength (e.marker ++ content) + byteLength u := by
        rw [byteLength_append, ← start, byteLength_append, marker]
        omega
      have length : byteLength (u ++ List.replicate (Emphasis.width strong) d ++ content) +
          Emphasis.width strong = byteLength e.source + byteLength u := by omega
      simp only [endOf, Option.map_some]
      rw [minus_of_eq length, ok_bind, minus_of_eq close, ok_bind, he]
  · rw [if_neg opens, if_neg opens]
    rfl

end TierLint.Offsets
