import TierLint.Settings.Toml.Layout

/-!
# String literals

A string stands between double quotes or between apostrophes. Only the former
have escapes. Three delimiters open a string of several lines; a line break
directly behind them is not part of it, and the first three delimiters of a run
inside close it, where one or two more belong to the string.
-/

set_option autoImplicit false

namespace TierLint.Toml

/-- The value of a hexadecimal digit. -/
def hexDigit? (c : Char) : Option Nat :=
  if c.isDigit then some (c.toNat - '0'.toNat)
  else if 'a' ≤ c && c ≤ 'f' then some (c.toNat - 'a'.toNat + 10)
  else if 'A' ≤ c && c ≤ 'F' then some (c.toNat - 'A'.toNat + 10)
  else none

/-- A number of exactly `n` hexadecimal digits with `value` in front of them. -/
def hexNumber? (value : Nat) : (n : Nat) → Text → Option (Nat × Text)
  | 0, t => some (value, t)
  | _ + 1, [] => none
  | n + 1, c :: t => do hexNumber? (16 * value + (← hexDigit? c)) n t

theorem hexNumber?_length_le {value n v : Nat} {t rest : Text}
    (h : hexNumber? value n t = some (v, rest)) : rest.length ≤ t.length := by
  induction t generalizing value n with
  | nil => cases n <;> simp_all [hexNumber?]
  | cons c t ih =>
    cases n with
    | zero => simp_all [hexNumber?]
    | succ n =>
      simp only [hexNumber?, Option.bind_eq_bind, Option.bind_eq_some_iff] at h
      obtain ⟨d, -, h⟩ := h
      exact Nat.le_succ_of_le (ih h)

/-- The character whose code point is written in `n` hexadecimal digits. -/
def codePoint? (n : Nat) (t : Text) : Option (Char × Text) := do
  let (value, rest) ← hexNumber? 0 n t
  if value.isValidChar then some (Char.ofNat value, rest) else none

/-- The character that is written behind a backslash. -/
def escape? : Text → Option (Char × Text)
  | 'b' :: t => some ('\x08', t)
  | 't' :: t => some ('\t', t)
  | 'n' :: t => some ('\n', t)
  | 'f' :: t => some ('\x0c', t)
  | 'r' :: t => some ('\r', t)
  | 'e' :: t => some ('\x1b', t)
  | '"' :: t => some ('"', t)
  | '\\' :: t => some ('\\', t)
  | 'x' :: t => codePoint? 2 t
  | 'u' :: t => codePoint? 4 t
  | 'U' :: t => codePoint? 8 t
  | _ => none

theorem codePoint?_length_le {n : Nat} {c : Char} {t rest : Text}
    (h : codePoint? n t = some (c, rest)) : rest.length ≤ t.length := by
  simp only [codePoint?, Option.bind_eq_bind, Option.bind_eq_some_iff] at h
  obtain ⟨⟨v, r⟩, h, h'⟩ := h
  split at h'
  · simp only [Option.some.injEq, Prod.mk.injEq] at h'
    exact h'.2 ▸ hexNumber?_length_le h
  · simp at h'

theorem escape?_length_lt {c : Char} {t rest : Text} (h : escape? t = some (c, rest)) :
    rest.length < t.length := by
  unfold escape? at h
  split at h
  case h_9 | h_10 | h_11 => exact Nat.lt_succ_of_le (codePoint?_length_le h)
  case h_12 => simp at h
  all_goals
    simp only [Option.some.injEq, Prod.mk.injEq] at h
    simp [h.2]

/-- How strings are delimited, and whether backslashes escape in them. -/
structure QuoteStyle where
  delimiter : Char
  escapes : Bool

/-- Strings between double quotes. -/
def QuoteStyle.basic : QuoteStyle := ⟨'"', true⟩

/-- Strings between apostrophes. -/
def QuoteStyle.literal : QuoteStyle := ⟨'\'', false⟩

namespace QuoteStyle

/-- The string up to the delimiter on the same line. -/
def line? (q : QuoteStyle) (t : Text) : Option (Text × Text) :=
  match t with
  | [] => none
  | c :: t =>
    if c == q.delimiter then some ([], t)
    else if q.escapes && c == '\\' then
      match _h : escape? t with
      | some (c, rest) => Text.prependTo [c] (line? q rest)
      | none => none
    else if isPlain c then Text.prependTo [c] (line? q t)
    else none
termination_by t.length
decreasing_by
  · have := escape?_length_lt _h
    simp only [List.length_cons]
    omega
  · simp

/-- The end of a string of several lines: three delimiters, and up to two more in front of them
that belong to the string. -/
def close? (q : QuoteStyle) (t : Text) : Option (Text × Text) :=
  if 3 ≤ Text.runLength q.delimiter t then
    let extra := min 2 (Text.runLength q.delimiter t - 3)
    some (List.replicate extra q.delimiter, t.drop (3 + extra))
  else none

/-- What follows blanks and line breaks. -/
def skipSpace : Text → Text
  | [] => []
  | '\n' :: t => skipSpace t
  | '\r' :: '\n' :: t => skipSpace t
  | c :: t => if isBlank c then skipSpace t else c :: t

theorem skipSpace_length_le (t : Text) : (skipSpace t).length ≤ t.length := by
  fun_induction skipSpace t <;> simp_all <;> omega

/-- The text goes on in the next line. -/
def breaksLine (t : Text) : Bool := (newline? (skipBlanks t)).isSome

/-- The string up to three delimiters. A backslash at the end of a line joins it with the next
text there is. -/
def lines? (q : QuoteStyle) (t : Text) : Option (Text × Text) :=
  match q.close? t with
  | some closed => some closed
  | none =>
    match t with
    | [] => none
    | '\n' :: t => Text.prependTo ['\n'] (lines? q t)
    | '\r' :: '\n' :: t => Text.prependTo ['\r', '\n'] (lines? q t)
    | c :: t =>
      if q.escapes && c == '\\' then
        -- blanks may stand between the backslash and the end of its line
        if breaksLine t then lines? q (skipSpace t)
        else
          match _h : escape? t with
          | some (c, rest) => Text.prependTo [c] (lines? q rest)
          | none => none
      else if isPlain c then Text.prependTo [c] (lines? q t)
      else none
termination_by t.length
decreasing_by
  · simp
  · simp only [List.length_cons]
    omega
  · have := skipSpace_length_le t
    simp only [List.length_cons]
    omega
  · have := escape?_length_lt _h
    simp only [List.length_cons]
    omega
  · simp

/-- The string that begins at the start of the text. -/
def string? (q : QuoteStyle) (t : Text) : Option (Text × Text) :=
  if 3 ≤ Text.runLength q.delimiter t then
    let body := t.drop 3
    q.lines? ((newline? body).getD body)
  else do q.line? (← expect? q.delimiter t)

end QuoteStyle

end TierLint.Toml
