import TierLint.Inline.CodeSpan

/-!
# Links and images

`[label](destination)`, with an exclamation mark in front for an image. The
label ends at the bracket that balances its opening one; brackets behind a
backslash or in a code span do not count. The destination ends at the balancing
parenthesis, and there only a backslash hides one.
-/

set_option autoImplicit false

namespace TierLint

open Text

/-- A link or image: the text between the brackets, and the text between the parentheses. -/
structure Link where
  label : Text
  destination : Text
  deriving DecidableEq

namespace Link

/-- The text up to the `]` that closes a bracket with `depth` brackets open
inside it, and the text behind that `]`. -/
def label? (depth : Nat) (t : Text) : Option (Text × Text) :=
  match t with
  | [] => none
  | '\\' :: [] => none
  | '\\' :: c :: rest => prependTo ['\\', c] (label? depth rest)
  | '[' :: rest => prependTo ['['] (label? (depth + 1) rest)
  | ']' :: rest =>
    match depth with
    | 0 => some ([], rest)
    | outer + 1 => prependTo [']'] (label? outer rest)
  | '`' :: rest =>
    match _h : CodeSpan.read? ('`' :: rest) with
    | some (span, after) => prependTo span.source (label? depth after)
    | none => prependTo ['`'] (label? depth rest)
  | c :: rest => prependTo [c] (label? depth rest)
termination_by t.length
decreasing_by
  · simp only [List.length_cons]
    omega
  · simp
  · simp
  · exact CodeSpan.length_lt_of_read? _h
  · simp
  · simp

/-- The text up to the `)` that closes a parenthesis with `depth` parentheses
open inside it, and the text behind that `)`. -/
def destination? (depth : Nat) : Text → Option (Text × Text)
  | [] => none
  | '\\' :: [] => none
  | '\\' :: c :: rest => prependTo ['\\', c] (destination? depth rest)
  | '(' :: rest => prependTo ['('] (destination? (depth + 1) rest)
  | ')' :: rest =>
    match depth with
    | 0 => some ([], rest)
    | outer + 1 => prependTo [')'] (destination? outer rest)
  | c :: rest => prependTo [c] (destination? depth rest)

/-- Reads a link. -/
def read? : Text → Option (Link × Text)
  | '[' :: t =>
    match label? 0 t with
    | some (label, '(' :: behind) =>
      (destination? 0 behind).map fun (destination, rest) => (⟨label, destination⟩, rest)
    | _ => none
  | _ => none

/-- Reads an image. -/
def readImage? : Text → Option (Link × Text)
  | '!' :: t => read? t
  | _ => none

/-- The bracket that closes the label, and the destination in its parentheses. -/
def tail (l : Link) : Text := ']' :: '(' :: (l.destination ++ [')'])

/-- The link as it is written. -/
def source (l : Link) : Text := '[' :: (l.label ++ l.tail)

theorem eq_of_label? {depth : Nat} {t label after : Text}
    (h : label? depth t = some (label, after)) : t = label ++ ']' :: after := by
  fun_induction label? depth t generalizing label after <;>
    simp_all <;> grind [CodeSpan.eq_of_read?]

theorem eq_of_destination? {depth : Nat} {t destination after : Text}
    (h : destination? depth t = some (destination, after)) : t = destination ++ ')' :: after := by
  fun_induction destination? depth t generalizing destination after <;> simp_all <;> grind

theorem eq_of_read? {t rest : Text} {l : Link} (h : read? t = some (l, rest)) :
    t = l.source ++ rest := by
  unfold read? at h
  split at h
  · split at h
    · rename_i inner _ label behind hl
      obtain ⟨destination, hd, rfl⟩ := by simpa [Option.map_eq_some_iff] using h
      rw [eq_of_label? hl, eq_of_destination? hd]
      simp [source, tail]
    · simp at h
  · simp at h

theorem eq_of_readImage? {t rest : Text} {l : Link} (h : readImage? t = some (l, rest)) :
    t = '!' :: (l.source ++ rest) := by
  unfold readImage? at h
  split at h
  · rw [eq_of_read? h]
  · simp at h

end Link

end TierLint
