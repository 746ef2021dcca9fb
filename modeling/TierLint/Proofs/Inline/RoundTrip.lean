import TierLint.Proofs.Inline.Readers
import TierLint.Proofs.Syntax.Every

/-!
# Text written with escapes

Any text can be written so that nothing in it is markup: with a backslash in front of every
punctuation character (`Escape.write`). What is read back is made of literal text and escapes alone,
since every construct begins with punctuation (`Inline.isProse_of_mem_write`). Its prose, and that
of its one text run, is the text again without its backslashes: an escaped backslash leaves nothing
(`Inline.prose_write`). So the text survives exactly if it has none (`Inline.prose_write_iff`).
-/

set_option autoImplicit false

namespace TierLint

open Element List

/-- The text with a backslash in front of every punctuation character. -/
def Escape.write (t : Text) : Text :=
  t.flatMap fun c => if isAsciiPunctuation c then ['\\', c] else [c]

/-- The characters that constructs begin with are punctuation. -/
theorem Markup.read?_of_not_isAsciiPunctuation {before : Option Char} {c : Char}
    (h : isAsciiPunctuation c = false) (v : Text) : read? before (c :: v) = none := by
  have opening := all_eq_true.1
    (by decide : ['\\', '`', '<', '!', '[', '*', '_'].all isAsciiPunctuation = true)
  refine read?_of_ne (fun mem => ?_) v
  rw [opening c mem] at h
  cases h

namespace Element

/-- The escaped character, unless it is a backslash itself. -/
theorem escapedText_cons (c : Char) : escapedText ['\\', c] = [c].filter (· != '\\') := by
  by_cases h : c = '\\' <;> simp [escapedText, h]

end Element

namespace Inline

variable {before : Option Char} {c : Char}

/-- Literal text is prose. -/
theorem proseOf_consText (t : Text) (es : List Element) :
    proseOf (consText t es) = t ++ proseOf es := by
  unfold consText
  split
  · simp [proseOf, prose, tokenProse]
  · rfl

/-- What holds of literal text holds of what is put in front of other elements. -/
theorem forall_mem_consText {P : Element → Prop} (literal : ∀ u, P (.token .text u))
    {es : List Element} (h : ∀ e ∈ es, P e) (t : Text) : ∀ e ∈ consText t es, P e := by
  unfold consText
  split
  · exact forall_mem_cons.2 ⟨literal _, (forall_mem_cons.1 h).2⟩
  · exact forall_mem_cons.2 ⟨literal _, h⟩

/-! ## Reading back -/

theorem elementsBehind_write_cons (t : Text) (h : isAsciiPunctuation c = true) :
    elementsBehind before (Escape.write (c :: t)) =
      .token .escapedChar ['\\', c] :: elementsBehind (some c) (Escape.write t) := by
  have text : Escape.write (c :: t) = '\\' :: c :: Escape.write t := by
    rw [Escape.write, flatMap_cons, if_pos h]
    rfl
  rw [text, elementsBehind_of_read? (Markup.read?_escape h _)]
  rfl

theorem elementsBehind_write_cons_of_not (t : Text) (h : isAsciiPunctuation c = false) :
    elementsBehind before (Escape.write (c :: t)) =
      consText [c] (elementsBehind (some c) (Escape.write t)) := by
  have text : Escape.write (c :: t) = c :: Escape.write t := by
    rw [Escape.write, flatMap_cons, h]
    rfl
  have alone : literalRepeats c (Escape.write t) = 0 := by
    have marks := all_eq_true.1 (by decide : ['`', '*', '_'].all isAsciiPunctuation = true)
    refine if_neg fun mark => ?_
    rw [marks c (by simpa [or_assoc] using mark)] at h
    cases h
  rw [text, elementsBehind_of_none (Markup.read?_of_not_isAsciiPunctuation h _), alone]
  rfl

/-- Nothing but literal text and escapes is read back. -/
theorem isProse_of_mem_write (t : Text) : ∀ e ∈ elementsBehind before (Escape.write t),
    ∃ u, e = .token .text u ∨ e = .token .escapedChar u := by
  induction t generalizing before with
  | nil =>
    rw [Escape.write, flatMap_nil, elementsBehind]
    exact forall_mem_nil _
  | cons c t ih =>
    cases h : isAsciiPunctuation c with
    | true =>
      rw [elementsBehind_write_cons t h]
      exact forall_mem_cons.2 ⟨⟨_, .inr rfl⟩, ih⟩
    | false =>
      rw [elementsBehind_write_cons_of_not t h]
      exact forall_mem_consText (fun u => ⟨u, .inl rfl⟩) ih [c]

/-- The text is read back without its backslashes. -/
theorem prose_write (t : Text) :
    proseOf (elementsBehind before (Escape.write t)) = t.filter (· != '\\') := by
  induction t generalizing before with
  | nil =>
    rw [Escape.write, flatMap_nil, elementsBehind]
    rfl
  | cons c t ih =>
    have first : (c :: t).filter (· != '\\') = [c].filter (· != '\\') ++ t.filter (· != '\\') :=
      filter_append [c] t
    cases h : isAsciiPunctuation c with
    | true =>
      rw [elementsBehind_write_cons t h, proseOf, prose, tokenProse, escapedText_cons, ih, first]
    | false =>
      have other : c ≠ '\\' := by
        rintro rfl
        cases h
      rw [elementsBehind_write_cons_of_not t h, proseOf_consText, ih, first]
      simp [other]

end Inline

/-- Prose that no other element interrupts is one run: the open one, or a run of its own. -/
theorem TextRun.flatMap_text_runsFromAll {es : List Element}
    (h : ∀ e ∈ es, ∃ u, e = .token .text u ∨ e = .token .escapedChar u) (above : List Element)
    (start : Nat) {run? : Option Open} (unbroken : ∀ run ∈ run?, run.broken = false) :
    (runsFromAll above start run? es).flatMap (·.text) =
      run?.elim [] (·.text) ++ proseOf es := by
  induction es generalizing start run? with
  | nil => cases run? <;> simp [runsFromAll, Open.finish, proseOf]
  | cons e es ih =>
    obtain ⟨first, others⟩ := forall_mem_cons.1 h
    -- the piece goes on with the open run, or opens one
    have step : ∀ piece, effect e = .extends piece → e.prose = piece →
        (runsFromAll above start run? (e :: es)).flatMap (·.text) =
          run?.elim [] (·.text) ++ proseOf (e :: es) := by
      intro piece effects prose
      rw [runsFromAll, effects]
      refine (ih others _ fun run hrun => ?_).trans ?_
      · cases hrun
        cases run? <;> rfl
      · rw [proseOf, prose, ← append_assoc]
        cases run? with
        | none => rfl
        | some run => simp [Open.extend, unbroken run rfl]
    obtain ⟨u, rfl | rfl⟩ := first
    · exact step u rfl rfl
    · exact step (escapedText u) rfl rfl

namespace Inline

/-- **Round trip.** A text that is written with an escape for every punctuation character is read
back as literal text and escapes alone. Its prose is the text again exactly if the text has no
backslash, and so is what its text runs hold. -/
theorem prose_write_iff (t : Text) (k : Kind) :
    let tree := Element.node k (elements (Escape.write t))
    (∀ e ∈ tree.children, ∃ u, e = .token .text u ∨ e = .token .escapedChar u) ∧
      (tree.prose = t ↔ '\\' ∉ t) ∧
      (tree.textRuns.flatMap (·.text) = t ↔ '\\' ∉ t) := by
  intro tree
  have tokens : ∀ e ∈ tree.children, ∃ u, e = .token .text u ∨ e = .token .escapedChar u :=
    isProse_of_mem_write t
  have survives : t.filter (· != '\\') = t ↔ '\\' ∉ t := by
    rw [filter_eq_self]
    exact ⟨fun all mem => bne_iff_ne.1 (all _ mem) rfl, fun no c hc =>
      bne_iff_ne.2 (ne_of_mem_of_not_mem hc no)⟩
  have prose : tree.prose = t.filter (· != '\\') := prose_write t
  have runs : tree.textRuns.flatMap (·.text) = t.filter (· != '\\') := by
    rw [← prose]
    exact TextRun.flatMap_text_runsFromAll tokens _ 0 nofun
  exact ⟨tokens, by rw [prose, survives], by rw [runs, survives]⟩

/-- A backslash does not survive. -/
theorem escaped_backslash_lost :
    let t := "a\\b".toList
    let tree := Element.node .paragraph (elements (Escape.write t))
    tree.children = [.token .text ['a'], .token .escapedChar "\\\\".toList, .token .text ['b']] ∧
      tree.prose = "ab".toList ∧ tree.textRuns.map (·.text) = ["ab".toList] ∧ tree.prose ≠ t := by
  dsimp only
  have back : elements (Escape.write "a\\b".toList) =
      [.token .text ['a'], .token .escapedChar "\\\\".toList, .token .text ['b']] := by
    decide +kernel
  rw [back]
  exact ⟨rfl, by decide, by decide, by decide⟩

end Inline

end TierLint
