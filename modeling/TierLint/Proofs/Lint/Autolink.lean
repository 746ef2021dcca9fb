import TierLint.Proofs.Block.Opener
import TierLint.Proofs.Inline.Readers
import TierLint.Proofs.Lint.Inert

/-!
# Lines that begin with an autolink

An autolink and a tag begin alike: an angle bracket and a name. A colon directly behind the name
tells that it is the scheme of an autolink. But the names of tags are made of letters, digits and
hyphens alone, so a scheme with a plus sign or a period is taken for a tag whose name ends there
(`Html.startsBlock_eq_hasSign`).

A line that begins with such an autolink is raw HTML, in which no rule finds anything, and it
interrupts paragraphs. A line that begins with any other autolink is running text
(`Block.reads_autolink_iff`).
-/

set_option autoImplicit false

namespace TierLint

open List Text

namespace Autolink

variable {t address rest : Text}

/-- The scheme of an address. -/
def scheme (address : Text) : Text := address.takeWhile isSchemeChar

/-- The scheme has a plus sign or a period in it. -/
def hasSign (address : Text) : Bool := (scheme address).any fun c => c == '+' || c == '.'

/-- Of the characters of schemes, plus signs and periods are not found in the names of tags. -/
theorem isNameChar_of_isSchemeChar {c : Char} (h : isSchemeChar c = true) :
    Html.isNameChar c = !(c == '+' || c == '.') := by
  rw [Html.isNameChar]
  by_cases sign : c = '+' ∨ c = '.'
  · rcases sign with rfl | rfl <;> decide
  · rw [not_or] at sign
    rw [isSchemeChar, beq_false_of_ne sign.1, beq_false_of_ne sign.2, Bool.or_false,
      Bool.or_false] at h
    rw [h, beq_false_of_ne sign.1, beq_false_of_ne sign.2]
    rfl

/-- The scheme is read in front of the closing bracket. -/
theorem scheme_takeWhile (t : Text) :
    scheme (t.takeWhile (· != '>')) = t.takeWhile isSchemeChar := by
  rw [scheme, takeWhile_takeWhile]
  congr 1
  funext c
  by_cases hc : c = '>'
  · subst hc
    decide
  · simp [hc]

theorem exists_of_hasScheme (h : hasScheme t = true) :
    ∃ c name more, c.isAlpha = true ∧ t.takeWhile isSchemeChar = c :: name ∧
      t = c :: (name ++ ':' :: more) := by
  simp only [hasScheme, Bool.and_eq_true] at h
  obtain ⟨⟨-, letter⟩, colon⟩ := h
  obtain ⟨more, behind⟩ := eq_cons_of_startsBy colon
  cases t with
  | nil => cases letter
  | cons c t =>
    have letter : c.isAlpha = true := letter
    have first : isSchemeChar c = true := by
      simp [isSchemeChar, Char.isAlphanum, letter]
    rw [dropWhile_cons_of_pos first] at behind
    refine ⟨c, t.takeWhile isSchemeChar, more, letter, takeWhile_cons_of_pos first, ?_⟩
    rw [← behind, takeWhile_append_dropWhile]

/-- An autolink is a bracket, the scheme, which begins with a letter, a colon and the rest. -/
theorem exists_of_read? (h : read? t = some (address, rest)) :
    ∃ c name more, c.isAlpha = true ∧ scheme address = c :: name ∧
      t = '<' :: c :: (name ++ ':' :: more) := by
  unfold read? at h
  split at h
  · dsimp only at h
    split at h
    · split at h
      · rename_i accepted
        cases h
        obtain ⟨c, name, more, letter, front, eq⟩ :=
          exists_of_hasScheme (Bool.and_eq_true_iff.1 accepted).1
        exact ⟨c, name, more, letter, (scheme_takeWhile _).trans front, congrArg _ eq⟩
      · cases h
    · cases h
  · cases h

end Autolink

/-! ## Tags -/

namespace Html

/-- Behind the characters of a scheme, a colon is found exactly if all of them may stand in the name
of a tag. -/
theorem startsBy_dropWhile_scheme {s : Text} (h : ∀ c ∈ s, Autolink.isSchemeChar c = true)
    (more : Text) :
    startsBy (· == ':') ((s ++ ':' :: more).dropWhile isNameChar) =
      !s.any fun c => c == '+' || c == '.' := by
  induction s with
  | nil => rfl
  | cons c s ih =>
    obtain ⟨first, others⟩ := forall_mem_cons.1 h
    have named := Autolink.isNameChar_of_isSchemeChar first
    rw [cons_append, any_cons]
    cases sign : (c == '+' || c == '.') with
    | false =>
      rw [sign] at named
      rw [dropWhile_cons_of_pos named, ih others, Bool.false_or]
    | true =>
      rw [sign] at named
      have other : (c == ':') = false := by
        refine beq_false_of_ne ?_
        rintro rfl
        cases first
      rw [dropWhile_cons_of_neg (by simp [named]), startsBy]
      simp [other]

/-- An autolink begins raw HTML exactly if its scheme has a plus sign or a period in it. -/
theorem startsBlock_eq_hasSign {t address rest : Text}
    (h : Autolink.read? t = some (address, rest)) :
    startsBlock t = Autolink.hasSign address := by
  obtain ⟨c, name, more, letter, front, rfl⟩ := Autolink.exists_of_read? h
  have ne {d : Char} (hd : d.isAlpha = false) : c ≠ d := by
    rintro rfl
    rw [letter] at hd
    cases hd
  have inside : ∀ d ∈ c :: name, Autolink.isSchemeChar d = true := by
    intro d hd
    rw [← front] at hd
    exact mem_takeWhile_imp hd
  have tag : startsBlock ('<' :: c :: (name ++ ':' :: more)) =
      startsTag (c :: (name ++ ':' :: more)) := by
    rw [startsBlock]
    · exact fun _ eq => ne (by decide) (cons.inj eq).1
    · exact fun _ eq => ne (by decide) (cons.inj eq).1
    · exact fun _ eq => ne (by decide) (cons.inj eq).1
  rw [tag, startsTag, startsBy, head?_cons, Option.any_some, letter, Bool.true_and, ← cons_append,
    startsBy_dropWhile_scheme inside, Bool.not_not, Autolink.hasSign, front]

end Html

/-! ## Lines -/

theorem Html.inert_element (lines : List Line) : (element lines).Inert :=
  Element.inert_of_not_prose (every_element (fun _ node => by cases node) lines fun _ => rfl)
    (every_element (fun hk => hk) lines rfl) rfl

namespace Line

variable {l : Line} {rest : Text}

/-- An angle bracket begins neither a heading nor a thematic break nor an item. -/
theorem unmarked_of_angle (start : unindented l.content = '<' :: rest) :
    AtxHeading.level? l.content = none ∧ ThematicBreak.isBreak l.content = false ∧
      ListMarker.read? l.content = none := by
  have trimmed := trimStart_of_unindented start (by decide)
  refine ⟨?_, ?_, Option.eq_none_iff_forall_ne_some.2 fun m found => ?_⟩
  · rw [AtxHeading.level?, trimmed]
    simp [runLength]
  · rw [ThematicBreak.isBreak, trimmed]
    simp
  · obtain ⟨c, more, same, first⟩ := ListMarker.exists_cons_of_read? found
    rw [start] at same
    cases same
    revert first
    decide

/-- A line that begins with an angle bracket is raw HTML or running text. -/
theorem opener_of_angle (start : unindented l.content = '<' :: rest) (indent : l.indent ≤ 3) :
    l.opener = if Html.startsBlock ('<' :: rest) then .html else .text := by
  obtain ⟨level, isBreak, marker⟩ := unmarked_of_angle start
  have blank : l.isBlank = false := isBlank_eq_false_of_unindented start (by decide)
  have fence : l.fence? = none := by
    rw [fence?, if_pos indent, start]
    simp [Fence.open?]
  have quoted : Quote.isQuoted l = false := by
    rw [Quote.isQuoted, start]
    simp [startsBy]
  have code : IndentedCode.isCode l = false := decide_eq_false (by omega)
  have html : l.startsHtml = Html.startsBlock ('<' :: rest) := by
    rw [startsHtml, trimStart_of_unindented start (by decide), decide_eq_true indent,
      Bool.true_and]
  simp [opener, blank, fence, level, isBreak, quoted, marker, code, html]

/-- Behind a paragraph, a line that begins with an angle bracket goes on with it unless it is raw
HTML. -/
theorem continues_of_angle (start : unindented l.content = '<' :: rest) :
    Paragraph.continues l = !(decide (l.indent ≤ 3) && Html.startsBlock ('<' :: rest)) := by
  obtain ⟨level, isBreak, marker⟩ := unmarked_of_angle start
  have trimmed := trimStart_of_unindented start (by decide)
  have blank : l.isBlank = false := isBlank_eq_false_of_unindented start (by decide)
  have underline : Paragraph.isUnderline l = false := by
    rw [Paragraph.isUnderline, trim, trimmed, trimEnd, dropEndWhile_cons]
    simp [show Unicode.isWhiteSpace '<' = false by decide]
  have interrupts : l.interruptsParagraph =
      (decide (l.indent ≤ 3) && Html.startsBlock ('<' :: rest)) := by
    rw [interruptsParagraph, trimmed, level, isBreak, ListMarker.interrupts, marker]
    simp [Fence.open?, startsBy]
  rw [Paragraph.continues, blank, underline, interrupts]
  rfl

end Line

namespace Block

variable {l : Line} {rest : Text}

/-- The block that begins with an angle bracket is raw HTML or a paragraph. -/
theorem next_of_angle (start : unindented l.content = '<' :: rest) (indent : l.indent ≤ 3)
    (ls : List Line) :
    next l ls =
      if Html.startsBlock ('<' :: rest) then
        (.html (l :: ls.takeWhile (!·.isBlank)), ls.dropWhile (!·.isBlank))
      else
        (.paragraph (Paragraph.begin l ls).1, (Paragraph.begin l ls).2) := by
  have opens := Line.opener_of_angle start indent
  split
  · rename_i html
    rw [next_eq_opened, opens, if_pos html]
    rfl
  · rename_i other
    have noRow : Table.isRow l = false := by
      rw [Table.isRow, trimStart_of_unindented start (by decide)]
      simp [startsBy]
    have noTable : Table.read? (l :: ls) = none := by
      cases ls with
      | nil => rfl
      | cons k ls => simp [Table.read?, noRow]
    rw [if_neg other] at opens
    exact next_of_text opens noTable

variable {t address : Text}

/-- **Autolinks and tags.** An autolink is taken for raw HTML exactly if its scheme has a plus sign
or a period in it. Then a line that begins with it is raw HTML, of which no rule sees anything, and
it ends a paragraph in front of it. Otherwise the line begins a paragraph, or goes on with one. As a
line of a paragraph it consists of the autolink and the running text behind it. -/
theorem reads_autolink_iff (h : Autolink.read? t = some (address, rest)) :
    (Html.startsBlock t = false ↔ Autolink.hasSign address = false) ∧
    ∀ l : Line, unindented l.content = t →
      Paragraph.lineElements l = l.elementsWith (Element.spacing (indentation l.content) ++
        .token .autolink (Autolink.source address) :: Inline.elementsBehind (some '>') rest) ∧
      (Paragraph.continues l = true ↔ 3 < l.indent ∨ Autolink.hasSign address = false) ∧
      (l.indent ≤ 3 → ∀ ls,
        (Autolink.hasSign address = false →
          next l ls = (.paragraph (Paragraph.begin l ls).1, (Paragraph.begin l ls).2)) ∧
        (Autolink.hasSign address = true → ∃ lines behind,
          next l ls = (.html (l :: lines), behind) ∧ (Html.element (l :: lines)).Inert)) := by
  have html := Html.startsBlock_eq_hasSign h
  refine ⟨by rw [html], fun l start => ?_⟩
  obtain ⟨c, name, more, -, -, eq⟩ := Autolink.exists_of_read? h
  have angle := start.trans eq
  rw [eq] at html
  refine ⟨?_, ?_, fun indent ls => ⟨fun plain => ?_, fun sign => ?_⟩⟩
  · have elements : Inline.elements t =
        .token .autolink (Autolink.source address) :: Inline.elementsBehind (some '>') rest :=
      Inline.elementsBehind_of_read? (Markup.read?_autolink h)
    rw [Paragraph.lineElements, start, elements]
  · rw [Line.continues_of_angle angle, html]
    simp
  · rw [next_of_angle angle indent, html, plain]
    rfl
  · rw [next_of_angle angle indent, html, sign]
    exact ⟨_, _, rfl, Html.inert_element _⟩

/-- An address whose signs stand behind the scheme, in a quote. -/
theorem reads_autolink_iff_quoted_mail :
    let address := "mailto:a.b+c@d".toList
    let l : Line := ⟨"> ".toList, "  <mailto:a.b+c@d> now".toList, .lf⟩
    Autolink.read? (unindented l.content) = some (address, " now".toList) ∧
      Autolink.hasSign address = false ∧
      ∀ ls, next l ls = (.paragraph (Paragraph.begin l ls).1, (Paragraph.begin l ls).2) := by
  intro address l
  have read : Autolink.read? (unindented l.content) = some (address, " now".toList) := by decide
  have plain : Autolink.hasSign address = false := by decide
  exact ⟨read, plain, fun ls => (((reads_autolink_iff read).2 l rfl).2.2 (by decide) ls).1 plain⟩

/-- An autolink with a plus sign in its scheme is taken for a tag, and its line for raw HTML. -/
theorem autolink_read_as_html :
    let t := "<git+ssh://x> Use it.\n".toList
    Autolink.read? t = some ("git+ssh://x".toList, " Use it.\n".toList) ∧
      Html.startsBlock t = true ∧
      Document.parse t = .ok (Document.tree [.node .htmlBlock
        [.token .htmlContent "<git+ssh://x> Use it.".toList, .token .newline ['\n']]]) := by
  dsimp only
  exact ⟨by decide, by decide, by decide +kernel⟩

end Block

end TierLint
