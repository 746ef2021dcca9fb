import TierLint.Inline.Autolink
import TierLint.Inline.Emphasis
import TierLint.Inline.Escape
import TierLint.Inline.Link

/-!
# Inline markup

The constructs that can begin at a place in running text. Each begins with a
character of its own, so at most one of them can be read at any place, and
reading it leaves less text. `Markup.source` is the text that was read.
-/

set_option autoImplicit false

namespace TierLint

/-- A construct of running text. -/
inductive Markup where
  /-- A backslash in front of the character. -/
  | escape (c : Char)
  /-- Code between backticks. -/
  | codeSpan (span : CodeSpan)
  /-- An address in angle brackets. -/
  | autolink (address : Text)
  /-- An image; its label is plain text. -/
  | image (link : Link)
  /-- A link; its label is running text. -/
  | link (link : Link)
  /-- Emphasis or strong emphasis of running text. -/
  | emphasis (e : Emphasis)
  deriving DecidableEq

namespace Markup

/-- One reader for each kind of construct; `before` is the character in front of the text. -/
def readers (before : Option Char) : List (Text → Option (Markup × Text)) :=
  [fun t => (Escape.read? t).map fun (c, rest) => (escape c, rest),
   fun t => (CodeSpan.read? t).map fun (span, rest) => (codeSpan span, rest),
   fun t => (Autolink.read? t).map fun (address, rest) => (autolink address, rest),
   fun t => (Link.readImage? t).map fun (l, rest) => (image l, rest),
   fun t => (Link.read? t).map fun (l, rest) => (link l, rest),
   fun t => (Emphasis.read? before t).map fun (e, rest) => (emphasis e, rest)]

/-- Reads the construct that begins the text. -/
def read? (before : Option Char) (t : Text) : Option (Markup × Text) :=
  (readers before).findSome? (· t)

/-- The construct as it is written. -/
def source : Markup → Text
  | escape c => ['\\', c]
  | codeSpan s => s.source
  | autolink a => Autolink.source a
  | image l => '!' :: l.source
  | link l => l.source
  | emphasis e => e.source

/-- The running text inside the construct. -/
def inner : Markup → Text
  | link l => l.label
  | emphasis e => e.content
  | _ => []

/-- The last character of the construct. -/
def last : Markup → Char
  | escape c => c
  | codeSpan _ => '`'
  | autolink _ => '>'
  | image _ => ')'
  | link _ => ')'
  | emphasis e => e.delimiter

theorem eq_of_read? {before : Option Char} {t rest : Text} {m : Markup}
    (h : read? before t = some (m, rest)) : t = m.source ++ rest := by
  obtain ⟨reader, mem, h⟩ := List.exists_of_findSome?_eq_some h
  simp only [readers, List.mem_cons, List.not_mem_nil, or_false] at mem
  rcases mem with rfl | rfl | rfl | rfl | rfl | rfl
  · obtain ⟨⟨c, _⟩, hr, h⟩ := Option.map_eq_some_iff.1 h
    cases h
    exact Escape.eq_of_read? hr
  · obtain ⟨⟨span, _⟩, hr, h⟩ := Option.map_eq_some_iff.1 h
    cases h
    exact CodeSpan.eq_of_read? hr
  · obtain ⟨⟨address, _⟩, hr, h⟩ := Option.map_eq_some_iff.1 h
    cases h
    exact Autolink.eq_of_read? hr
  · obtain ⟨⟨l, _⟩, hr, h⟩ := Option.map_eq_some_iff.1 h
    cases h
    exact Link.eq_of_readImage? hr
  · obtain ⟨⟨l, _⟩, hr, h⟩ := Option.map_eq_some_iff.1 h
    cases h
    exact Link.eq_of_read? hr
  · obtain ⟨⟨e, _⟩, hr, h⟩ := Option.map_eq_some_iff.1 h
    cases h
    exact Emphasis.eq_of_read? hr

/-- What follows a construct is shorter than the text it was read from, and so
is the running text inside. -/
theorem length_lt_of_read? {before : Option Char} {t rest : Text} {m : Markup}
    (h : read? before t = some (m, rest)) :
    rest.length < t.length ∧ m.inner.length < t.length := by
  obtain ⟨reader, mem, hr⟩ := List.exists_of_findSome?_eq_some h
  simp only [readers, List.mem_cons, List.not_mem_nil, or_false] at mem
  have whole := congrArg List.length (eq_of_read? h)
  rcases mem with rfl | rfl | rfl | rfl | rfl | rfl
  · obtain ⟨_, -, h⟩ := Option.map_eq_some_iff.1 hr
    cases h
    simp [source, inner] at whole ⊢
    omega
  · obtain ⟨_, hs, h⟩ := Option.map_eq_some_iff.1 hr
    cases h
    have := CodeSpan.length_lt_of_read? hs
    simp [inner]
    omega
  · obtain ⟨_, -, h⟩ := Option.map_eq_some_iff.1 hr
    cases h
    simp [source, Autolink.source, inner] at whole ⊢
    omega
  · obtain ⟨_, -, h⟩ := Option.map_eq_some_iff.1 hr
    cases h
    simp [source, Link.source, Link.tail, inner] at whole ⊢
    omega
  · obtain ⟨_, -, h⟩ := Option.map_eq_some_iff.1 hr
    cases h
    simp [source, Link.source, Link.tail, inner] at whole ⊢
    omega
  · obtain ⟨_, he, h⟩ := Option.map_eq_some_iff.1 hr
    cases h
    have := Emphasis.length_lt_of_read? he
    simp [inner]
    omega

end Markup

end TierLint
