import TierLint.Inline.CodeSpan
import TierLint.Unicode.Word

/-!
# Emphasis

A single `*` or `_` opens emphasis, a longer run opens strong emphasis with its
first two characters. The text inside begins and ends with something other than
white space, and `_` opens and closes only where no letter or digit touches it
from outside. The closing run is searched from left to right; backslashes and
code spans hide what they cover. Emphasis closes with a run of one delimiter,
strong emphasis with the last two delimiters of a run of two or more.
-/

set_option autoImplicit false

namespace TierLint

open Text Unicode

/-- Emphasised text between equal delimiters. -/
structure Emphasis where
  delimiter : Char
  strong : Bool
  content : Text
  deriving DecidableEq

namespace Emphasis

/-- Number of delimiters on each side. -/
def width (strong : Bool) : Nat := if strong then 2 else 1

/-- The delimiters on one side. -/
def marker (e : Emphasis) : Text := List.replicate (width e.strong) e.delimiter

/-- The emphasis as it is written. -/
def source (e : Emphasis) : Text := e.marker ++ e.content ++ e.marker

/-- A run of `run` delimiters `d` between `before` and `after` can close. There
is no character `before` it at the start of the emphasised text. -/
def closes (d : Char) (strong : Bool) (before : Option Char) (run : Nat) (after : Text) : Bool :=
  before.any (!isWhiteSpace ·)
    && !(d == '_' && startsBy isAlphanumeric after)
    && (if strong then 2 ≤ run else run == 1)

/-- The text up to the delimiters that close the emphasis, and the text behind
them; `before` is the emphasised character in front of `t`. -/
def closing? (d : Char) (strong : Bool) (before : Option Char) (t : Text) :
    Option (Text × Text) :=
  match t with
  | [] => none
  | '\\' :: [] => none
  | '\\' :: c :: rest => prependTo ['\\', c] (closing? d strong (some c) rest)
  | '`' :: rest =>
    match h : CodeSpan.read? ('`' :: rest) with
    | some (span, after) => prependTo span.source (closing? d strong (some '`') after)
    | none =>
      -- no code span begins here, so the backticks are text
      prependTo (List.replicate (1 + runLength '`' rest) '`')
        (closing? d strong (some '`') (afterRun '`' rest))
  | c :: rest =>
    if c = d then
      let run := 1 + runLength d rest
      let after := afterRun d rest
      if closes d strong before run after then
        some (List.replicate (run - width strong) d, after)
      else
        prependTo (List.replicate run d) (closing? d strong (some d) after)
    else
      prependTo [c] (closing? d strong (some c) rest)
termination_by t.length
decreasing_by
  · simp only [List.length_cons]
    omega
  · exact CodeSpan.length_lt_of_read? h
  · exact Nat.lt_succ_of_le (afterRun_length_le ..)
  · exact Nat.lt_succ_of_le (afterRun_length_le ..)
  · simp

/-- A delimiter behind the character `before` may open emphasis. -/
def mayOpen (d : Char) (before : Option Char) : Bool :=
  (d == '*' || d == '_') && before != some d && !(d == '_' && before.any isAlphanumeric)

/-- Reads emphasis that stands behind the character `before`. -/
def read? (before : Option Char) : Text → Option (Emphasis × Text)
  | [] => none
  | d :: rest =>
    let strong := startsBy (· == d) rest
    let inner := (d :: rest).drop (width strong)
    if mayOpen d before && startsBy (!isWhiteSpace ·) inner then
      (closing? d strong none inner).map fun (content, after) => (⟨d, strong, content⟩, after)
    else
      none

theorem eq_of_closing? {d : Char} {strong : Bool} {before : Option Char} {t content after : Text}
    (h : closing? d strong before t = some (content, after)) :
    t = content ++ List.replicate (width strong) d ++ after := by
  fun_induction closing? d strong before t generalizing content after with
  | case1 => simp at h
  | case2 => simp at h
  | case3 _ c rest ih =>
    obtain ⟨inner, hi, rfl⟩ := prependTo_eq_some.1 h
    simp [ih hi]
  | case4 _ rest span behind hs ih =>
    obtain ⟨inner, hi, rfl⟩ := prependTo_eq_some.1 h
    simp [CodeSpan.eq_of_read? hs, ih hi]
  | case5 _ rest _ ih =>
    obtain ⟨inner, hi, rfl⟩ := prependTo_eq_some.1 h
    rw [cons_eq_replicate_append_afterRun, ih hi]
    simp
  | case6 before rest run behind =>
    rename_i hc _ _ _
    obtain ⟨rfl, rfl⟩ := by simpa using h
    have wide : width strong ≤ run := by
      simp only [closes, Bool.and_eq_true] at hc
      unfold width
      split <;> simp_all
    rw [cons_eq_replicate_append_afterRun, List.replicate_append_replicate,
      Nat.sub_add_cancel wide]
  | case7 before rest run behind =>
    rename_i ih
    obtain ⟨inner, hi, rfl⟩ := prependTo_eq_some.1 h
    rw [cons_eq_replicate_append_afterRun, show afterRun d rest = _ from ih hi]
    simp [run]
  | case8 _ c rest =>
    rename_i ih
    obtain ⟨inner, hi, rfl⟩ := prependTo_eq_some.1 h
    simp [ih hi]

theorem eq_of_read? {before : Option Char} {t rest : Text} {e : Emphasis}
    (h : read? before t = some (e, rest)) : t = e.source ++ rest := by
  unfold read? at h
  split at h
  · simp at h
  · rename_i d tail
    obtain ⟨-, content, hc, rfl⟩ := by simpa [Option.map_eq_some_iff] using h
    have opening : List.take (width (startsBy (· == d) tail)) (d :: tail) =
        List.replicate (width (startsBy (· == d) tail)) d := by
      cases tail with
      | nil => simp [width, startsBy]
      | cons c tail =>
        by_cases hcd : c = d <;> simp [width, startsBy, hcd, List.replicate_succ]
    calc d :: tail = List.take (width (startsBy (· == d) tail)) (d :: tail) ++
            List.drop (width (startsBy (· == d) tail)) (d :: tail) :=
          (List.take_append_drop ..).symm
      _ = _ := by
          rw [opening, eq_of_closing? hc]
          simp [source, marker]

/-- What follows emphasis, and what it encloses, is shorter than the text it was read from. -/
theorem length_lt_of_read? {before : Option Char} {t rest : Text} {e : Emphasis}
    (h : read? before t = some (e, rest)) : rest.length + e.content.length < t.length := by
  have : 0 < width e.strong := by unfold width; split <;> decide
  rw [eq_of_read? h]
  simp [source, marker]
  omega

end Emphasis

end TierLint
