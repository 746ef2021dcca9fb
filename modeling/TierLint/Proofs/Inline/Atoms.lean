import TierLint.Proofs.Inline.CodeSpan

/-!
# Running text as scanners pass over it

Whoever looks for a bracket or a pipe in running text passes over it in steps: a backslash takes the
next character along, a code span is passed as a whole, and any other character stands for itself.
`Atom.ofText` lists these steps; they make up the text (`Atom.textOf_ofText`).

A run of backticks that opens no code span can be passed in two ways: as a whole, or only its first
backtick, so that what is left of the run is tried again.
-/

set_option autoImplicit false

namespace TierLint

open List Text

/-- A step of a scanner through running text. -/
inductive Atom where
  /-- A backslash and the character it hides. -/
  | escape (c : Char)
  /-- A code span. -/
  | codeSpan (span : CodeSpan)
  /-- Backticks that open no code span. -/
  | ticks (n : Nat)
  /-- Any other character. -/
  | plain (c : Char)

namespace Atom

/-- The text that is passed. -/
def source : Atom → Text
  | escape c => ['\\', c]
  | codeSpan s => s.source
  | ticks n => replicate n '`'
  | plain c => [c]

/-- The character stands for itself. -/
def isPlain (c : Char) : Atom → Bool
  | plain d => d == c
  | _ => false

/-- The text of consecutive steps. -/
def textOf (as : List Atom) : Text := as.flatMap source

/-- The steps through a text. If `whole` is set, a run of backticks that opens no code span is
passed as a whole, otherwise one backtick at a time. -/
def ofText (whole : Bool) (t : Text) : List Atom :=
  match t with
  | [] => []
  | '\\' :: c :: rest => .escape c :: ofText whole rest
  | '`' :: rest =>
    match h : CodeSpan.read? ('`' :: rest) with
    | some (span, after) => .codeSpan span :: ofText whole after
    | none =>
      let more := if whole then runLength '`' rest else 0
      .ticks (1 + more) :: ofText whole (rest.drop more)
  | c :: rest => .plain c :: ofText whole rest
termination_by t.length
decreasing_by
  · simp only [length_cons]
    omega
  · exact CodeSpan.length_lt_of_read? h
  · simp only [length_cons, length_drop]
    omega
  · simp

@[simp] theorem textOf_nil : textOf [] = [] := rfl

@[simp] theorem textOf_cons (a : Atom) (as : List Atom) :
    textOf (a :: as) = a.source ++ textOf as := rfl

@[simp] theorem textOf_append (as bs : List Atom) : textOf (as ++ bs) = textOf as ++ textOf bs :=
  flatMap_append

variable {t rest after : Text} {span : CodeSpan}

/-- The steps make up the text. -/
theorem textOf_ofText (whole : Bool) (t : Text) : textOf (ofText whole t) = t := by
  fun_induction ofText whole t with
  | case1 => rfl
  | case2 c rest ih => rw [textOf_cons, ih]; rfl
  | case3 rest span after found ih =>
    rw [textOf_cons, ih]
    exact (CodeSpan.eq_of_read? found).symm
  | case4 rest _ more ih =>
    have run : rest.take more = replicate more '`' := by
      cases whole with
      | false => rfl
      | true => exact take_runLength '`' rest
    rw [textOf_cons, ih, source, Nat.add_comm, replicate_succ, cons_append, ← run, take_append_drop]
  | case5 c rest _ _ ih => rw [textOf_cons, ih]; rfl

/-! ## Step by step -/

theorem ofText_escape (whole : Bool) (c : Char) (rest : Text) :
    ofText whole ('\\' :: c :: rest) = .escape c :: ofText whole rest := by
  rw [ofText]

theorem ofText_codeSpan (whole : Bool) (h : CodeSpan.read? t = some (span, after)) :
    ofText whole t = .codeSpan span :: ofText whole after := by
  obtain ⟨rest, rfl⟩ := CodeSpan.exists_cons_of_read? h
  rw [ofText]
  split
  · rename_i found
    cases h.symm.trans found
    rfl
  · rename_i found
    cases h.symm.trans found

/-- One backtick at a time. -/
theorem ofText_tick (h : CodeSpan.read? ('`' :: rest) = none) :
    ofText false ('`' :: rest) = .ticks 1 :: ofText false rest := by
  rw [ofText]
  split
  · rename_i found
    cases h.symm.trans found
  · rfl

/-- A run as a whole. -/
theorem ofText_run (h : CodeSpan.read? ('`' :: rest) = none) :
    ofText true ('`' :: rest) =
      .ticks (1 + runLength '`' rest) :: ofText true (afterRun '`' rest) := by
  rw [← drop_runLength, ofText]
  split
  · rename_i found
    cases h.symm.trans found
  · rfl

/-- A backslash stands for itself at the end only. -/
theorem ofText_plain {c : Char} (escape : c = '\\' → rest = []) (tick : c ≠ '`') (whole : Bool) :
    ofText whole (c :: rest) = .plain c :: ofText whole rest := by
  rw [ofText]
  · exact fun _ _ backslash more => List.cons_ne_nil _ _ (more.symm.trans (escape backslash))
  · exact tick

end Atom

end TierLint
