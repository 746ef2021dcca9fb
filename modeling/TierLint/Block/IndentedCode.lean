import TierLint.Block.Line

/-!
# Indented code blocks

Lines indented by four or more spaces or tabs. Blank lines between them belong
to the block, blank lines behind the last of them do not.
-/

set_option autoImplicit false

namespace TierLint

/-- The number of lines up to the last one that `accepts`, when blank lines may
stand between accepted lines and any other line ends the search. `accepts` also
learns whether a blank line stands in front of the line. -/
def Line.reach (accepts : Bool → Line → Bool) (afterBlank : Bool) : List Line → Nat
  | [] => 0
  | l :: ls =>
    if l.isBlank then
      match Line.reach accepts true ls with
      | 0 => 0
      | n + 1 => n + 2
    else if accepts afterBlank l then Line.reach accepts false ls + 1
    else 0

theorem Line.reach_le_length (accepts : Bool → Line → Bool) (afterBlank : Bool) (lines : List Line) :
    Line.reach accepts afterBlank lines ≤ lines.length := by
  induction lines generalizing afterBlank with
  | nil => exact Nat.le_refl _
  | cons l ls ih =>
    have later := ih true
    have next := ih false
    rw [Line.reach, List.length_cons]
    split
    · split <;> omega
    · split <;> omega

namespace IndentedCode

/-- The line is indented as code. -/
def isCode (l : Line) : Bool := 4 ≤ l.indent

/-- Reads an indented code block. -/
def read? : List Line → Option (List Line × List Line)
  | [] => none
  | l :: ls =>
    if !l.isBlank && isCode l then
      let n := Line.reach (fun _ => isCode) false ls
      some (l :: ls.take n, ls.drop n)
    else
      none

/-- The element for the block. -/
def element (lines : List Line) : Element :=
  .node .codeBlock [.node .codeContent (lines.flatMap (·.elements .text))]

theorem suffix_of_read? {l : Line} {ls lines rest : List Line}
    (h : read? (l :: ls) = some (lines, rest)) : rest <:+ ls := by
  obtain ⟨-, -, rfl⟩ := by simpa [read?] using h
  exact List.drop_suffix _ _

end IndentedCode

end TierLint
