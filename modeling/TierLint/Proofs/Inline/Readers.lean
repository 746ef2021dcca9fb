import TierLint.Inline.Elements
import TierLint.Proofs.Inline.CodeSpan

/-!
# Which construct begins at a place

Every construct begins with a character of its own. So the first character of a text tells which of
the readers may succeed (`Markup.read?_escape`, `Markup.read?_autolink`, `Markup.read?_delimiter`),
and where none of these characters stands nothing begins (`Markup.read?_of_ne`). What is read there
is the first of the elements (`Inline.elementsBehind_of_read?`, `Inline.elementsBehind_of_none`). It
is what the construct's own reader makes of the text (`Markup.reads_of_read?`).
-/

set_option autoImplicit false

namespace TierLint

variable {before : Option Char} {t v : Text}

theorem Escape.read?_of_ne {c : Char} (h : c ≠ '\\') (v : Text) : read? (c :: v) = none := by
  simp [read?, h]

theorem CodeSpan.read?_of_ne {c : Char} (h : c ≠ '`') (v : Text) : read? (c :: v) = none := by
  simp [read?, h]

theorem Autolink.read?_of_ne {c : Char} (h : c ≠ '<') (v : Text) : read? (c :: v) = none := by
  simp [read?, h]

theorem Link.readImage?_of_ne {c : Char} (h : c ≠ '!') (v : Text) :
    readImage? (c :: v) = none := by
  simp [readImage?, h]

theorem Link.read?_of_ne {c : Char} (h : c ≠ '[') (v : Text) : read? (c :: v) = none := by
  simp [read?, h]

theorem Link.getLast?_source (l : Link) (front : Text) :
    (front ++ l.source).getLast? = some ')' := by
  have split : front ++ l.source =
      front ++ '[' :: (l.label ++ ']' :: '(' :: l.destination) ++ [')'] := by
    simp [source, tail]
  rw [split, List.getLast?_concat]

theorem Emphasis.getLast?_marker (e : Emphasis) : e.marker.getLast? = some e.delimiter := by
  obtain ⟨d, strong, content⟩ := e
  cases strong <;> rfl

theorem Emphasis.getLast?_source (e : Emphasis) : e.source.getLast? = some e.delimiter := by
  rw [source, List.getLast?_append, getLast?_marker]
  rfl

theorem Emphasis.read?_of_ne {c : Char} (h : c ≠ '*') (h' : c ≠ '_') (v : Text) :
    read? before (c :: v) = none := by
  simp [read?, mayOpen, h, h']

theorem Emphasis.eq_star_or_of_read? {d : Char} {cut : Emphasis × Text}
    (h : read? before (d :: v) = some cut) : d = '*' ∨ d = '_' := by
  refine Decidable.byContradiction fun other => ?_
  obtain ⟨star, score⟩ := not_or.1 other
  rw [read?_of_ne star score] at h
  cases h

theorem Emphasis.delimiter_of_read? {d : Char} {e : Emphasis} {rest : Text}
    (h : read? before (d :: v) = some (e, rest)) : e.delimiter = d := by
  simp only [read?] at h
  split at h
  · obtain ⟨_, -, h⟩ := Option.map_eq_some_iff.1 h
    cases h
    rfl
  · cases h

namespace Markup

/-- The readers are tried one after the other. -/
theorem read?_eq (t : Text) :
    read? before t =
      (((Escape.read? t).map fun (c, rest) => (.escape c, rest)).or
      (((CodeSpan.read? t).map fun (s, rest) => (.codeSpan s, rest)).or
      (((Autolink.read? t).map fun (address, rest) => (.autolink address, rest)).or
      (((Link.readImage? t).map fun (l, rest) => (.image l, rest)).or
      (((Link.read? t).map fun (l, rest) => (.link l, rest)).or
      ((Emphasis.read? before t).map fun (e, rest) => (.emphasis e, rest))))))) := by
  have first : ∀ {α β : Type} (f : α → Option β) (a : α) (as : List α),
      (a :: as).findSome? f = (f a).or (as.findSome? f) := by
    intro α β f a as
    rw [List.findSome?_cons]
    cases f a <;> rfl
  rw [read?, readers, first, first, first, first, first, first, List.findSome?_nil, Option.or_none]

/-- The construct and the rest are what its own reader makes of the text. -/
def Reads (before : Option Char) (t rest : Text) : Markup → Prop
  | escape c => Escape.read? t = some (c, rest)
  | codeSpan s => CodeSpan.read? t = some (s, rest)
  | autolink address => Autolink.read? t = some (address, rest)
  | image l => Link.readImage? t = some (l, rest)
  | link l => Link.read? t = some (l, rest)
  | emphasis e => Emphasis.read? before t = some (e, rest)

theorem reads_of_read? {rest : Text} {m : Markup} (h : read? before t = some (m, rest)) :
    m.Reads before t rest := by
  obtain ⟨reader, mem, h⟩ := List.exists_of_findSome?_eq_some h
  simp only [readers, List.mem_cons, List.not_mem_nil, or_false] at mem
  rcases mem with rfl | rfl | rfl | rfl | rfl | rfl
  all_goals
    obtain ⟨_, found, h⟩ := Option.map_eq_some_iff.1 h
    cases h
    exact found

/-- A construct ends with its last character. -/
theorem getLast?_source {rest : Text} {m : Markup} (h : read? before t = some (m, rest)) :
    m.source.getLast? = some m.last := by
  have found := reads_of_read? h
  cases m with
  | escape c => rfl
  | codeSpan s => exact CodeSpan.getLast?_source found
  | autolink address => exact List.getLast?_concat (l := '<' :: address)
  | image l => exact l.getLast?_source ['!']
  | link l => exact l.getLast?_source []
  | emphasis e => exact e.getLast?_source

/-- Where none of the seven characters stands, no construct begins. -/
theorem read?_of_ne {c : Char} (hc : c ∉ ['\\', '`', '<', '!', '[', '*', '_']) (v : Text) :
    read? before (c :: v) = none := by
  simp only [List.mem_cons, List.not_mem_nil, or_false, not_or] at hc
  obtain ⟨esc, tick, less, bang, bracket, star, score⟩ := hc
  rw [read?_eq, Escape.read?_of_ne esc, CodeSpan.read?_of_ne tick, Autolink.read?_of_ne less,
    Link.readImage?_of_ne bang, Link.read?_of_ne bracket, Emphasis.read?_of_ne star score]
  rfl

/-- A backslash in front of punctuation is read as an escape. -/
theorem read?_escape {p : Char} (hp : isAsciiPunctuation p = true) (s : Text) :
    read? before ('\\' :: p :: s) = some (.escape p, s) := by
  rw [read?_eq, Escape.read?, if_pos hp]
  rfl

theorem read?_autolink {address rest : Text} (h : Autolink.read? t = some (address, rest)) :
    read? before t = some (.autolink address, rest) := by
  have eq : t = '<' :: (address ++ ['>'] ++ rest) := Autolink.eq_of_read? h
  rw [read?_eq, h, eq, Escape.read?_of_ne (by decide), CodeSpan.read?_of_ne (by decide)]
  rfl

/-- At a delimiter only emphasis may begin. -/
theorem read?_delimiter {d : Char} (hd : d = '*' ∨ d = '_') (v : Text) :
    read? before (d :: v) =
      (Emphasis.read? before (d :: v)).map fun (e, rest) => (.emphasis e, rest) := by
  have others : d ≠ '\\' ∧ d ≠ '`' ∧ d ≠ '<' ∧ d ≠ '!' ∧ d ≠ '[' := by
    rcases hd with rfl | rfl <;> decide
  obtain ⟨esc, tick, less, bang, bracket⟩ := others
  rw [read?_eq, Escape.read?_of_ne esc, CodeSpan.read?_of_ne tick, Autolink.read?_of_ne less,
    Link.readImage?_of_ne bang, Link.read?_of_ne bracket]
  rfl

end Markup

namespace Inline

variable {after : Text} {m : Markup}

theorem elementsBehind_of_read? (h : Markup.read? before t = some (m, after)) :
    elementsBehind before t =
      m.element (elementsBehind none m.inner) :: elementsBehind (some m.last) after := by
  cases t with
  | nil => exact absurd (Markup.length_lt_of_read? h).1 (Nat.not_lt_zero _)
  | cons c rest =>
    rw [elementsBehind]
    split
    · rename_i found
      cases h.symm.trans found
      rfl
    · rename_i found
      cases h.symm.trans found

theorem elementsBehind_of_none {c : Char} {rest : Text}
    (h : Markup.read? before (c :: rest) = none) :
    elementsBehind before (c :: rest) =
      consText (List.replicate (1 + literalRepeats c rest) c)
        (elementsBehind (some c) (rest.drop (literalRepeats c rest))) := by
  rw [elementsBehind]
  split
  · rename_i found
    cases h.symm.trans found
  · rfl

end Inline

end TierLint
