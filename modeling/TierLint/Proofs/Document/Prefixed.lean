import TierLint.Proofs.Document.Alike

/-!
# Texts with something in front of their lines

To know the lines of a text that is made from the lines of another one, lines are put together and
cut again (`Line.ofText_textOf`). Lines with a text in front of them stay lines (`Line.behind`,
`Line.cut_map_behind`).

A container moves what stands in front of its lines aside. Inside of it are the lines of the other
text with something pending (`Line.aside`), which are alike to these (`Line.inStep_aside`).
-/

set_option autoImplicit false

namespace TierLint

/-! ## Lines put together and cut again -/

namespace Line

theorem ofText_append (a b : Text) : ofText (a ++ b) = a.foldr consChar (ofText b) :=
  List.foldr_append

/-- Characters in front of an ended line join its content. -/
theorem foldr_consChar_cons {e : LineEnding} {t : Text} (lf : '\n' ∉ t)
    (cr : e = .lf → t.getLast? ≠ some '\r') (ls : List Line) :
    t.foldr consChar (⟨[], [], e⟩ :: ls) = ⟨[], t, e⟩ :: ls := by
  induction t with
  | nil => rfl
  | cons c t ih =>
    have notLf : (c == '\n') = false := beq_eq_false_iff_ne.2 fun eq => lf (eq ▸ List.mem_cons_self)
    have cr' : e = .lf → t.getLast? ≠ some '\r' := by
      intro ending last
      refine cr ending ?_
      rw [List.getLast?_cons, last]
      rfl
    have whole : ¬ (c == '\r' && t.isEmpty && e == .lf) = true := by
      intro breaks
      simp only [Bool.and_eq_true, beq_iff_eq, List.isEmpty_iff] at breaks
      obtain ⟨⟨rfl, rfl⟩, rfl⟩ := breaks
      exact cr rfl rfl
    rw [List.foldr_cons, ih (fun mem => lf (List.mem_cons_of_mem c mem)) cr', consChar, notLf]
    exact if_neg whole

/-- Characters at the end of the text are a line without an ending. -/
theorem foldr_consChar_nil {t : Text} (lf : '\n' ∉ t) (ne : t ≠ []) :
    t.foldr consChar [] = [⟨[], t, .none⟩] := by
  induction t with
  | nil => exact absurd rfl ne
  | cons c t ih =>
    have notLf : (c == '\n') = false := beq_eq_false_iff_ne.2 fun eq => lf (eq ▸ List.mem_cons_self)
    cases t with
    | nil => simp [consChar, notLf]
    | cons d t =>
      rw [List.foldr_cons, ih (fun mem => lf (List.mem_cons_of_mem c mem)) (by simp), consChar,
        notLf]
      simp

/-- Lines that end at their line ends are those of their text. -/
theorem ofText_textOf {ls : List Line} (cut : Cut ls)
    (last : ∀ l ∈ ls, l.ending = .none → l.content ≠ []) : ofText (textOf ls) = ls := by
  induction ls with
  | nil => rfl
  | cons l ls ih =>
    obtain ⟨pending, lf, cr, ended, rest⟩ := cut
    have others := ih rest fun k hk => last k (List.mem_cons_of_mem l hk)
    have text : textOf (l :: ls) = l.content ++ (l.ending.text ++ textOf ls) := by
      simp [textOf, Line.text, pending]
    obtain ⟨p, content, ending⟩ := l
    obtain rfl : p = [] := pending
    rw [text, ofText_append]
    cases ending with
    | none =>
      obtain rfl := ended rfl
      exact foldr_consChar_nil lf (last _ List.mem_cons_self rfl)
    | lf =>
      have here : ofText (LineEnding.lf.text ++ textOf ls) = ⟨[], [], .lf⟩ :: ls :=
        congrArg (consChar '\n') others
      exact (congrArg (content.foldr consChar) here).trans (foldr_consChar_cons lf cr ls)
    | crlf =>
      have here : ofText (LineEnding.crlf.text ++ textOf ls) = ⟨[], [], .crlf⟩ :: ls :=
        congrArg (fun ks => consChar '\r' (consChar '\n' ks)) others
      exact (congrArg (content.foldr consChar) here).trans (foldr_consChar_cons lf cr ls)

/-! ## Something in front of lines -/

/-- The line with the text `p` in front of its content. -/
def behind (p : Text) (l : Line) : Line := { l with content := p ++ l.content }

/-- The line with the text `p` moved aside. -/
def aside (p : Text) (l : Line) : Line := { l with pending := p }

/-- The text can stand in front of a line: it has no line feed, and no carriage return that could
become part of a line end. -/
def CanLead (p : Text) : Prop := p ≠ [] ∧ '\n' ∉ p ∧ p.getLast? ≠ some '\r'

instance (p : Text) : Decidable (CanLead p) := inferInstanceAs (Decidable (_ ∧ _ ∧ _))

variable {p : Text} {l : Line} {ls ks : List Line}

theorem text_behind (pending : l.pending = []) (p : Text) : (l.behind p).text = p ++ l.text := by
  simp [text, behind, pending]

theorem cut_cons_behind (lead : CanLead p) (cut : Cut (l :: ls)) (rest : Cut ks)
    (none : ls = [] → ks = []) : Cut (l.behind p :: ks) := by
  obtain ⟨pending, lf, cr, last, -⟩ := cut
  refine ⟨pending, ?_, ?_, fun ending => none (last ending), rest⟩
  · intro mem
    rcases List.mem_append.1 mem with front | inside
    · exact lead.2.1 front
    · exact lf inside
  · intro ending isCr
    rw [behind, List.getLast?_append] at isCr
    cases content : l.content.getLast? with
    | none => exact lead.2.2 (by simpa [content] using isCr)
    | some c => exact cr ending (by simpa [content] using isCr)

/-- Lines with a text in front of each are lines of a text. -/
theorem cut_map_behind (lead : CanLead p) (cut : Cut ls) : Cut (ls.map (behind p)) := by
  induction ls with
  | nil => trivial
  | cons l ls ih =>
    have rest : Cut ls := cut.2.2.2.2
    refine cut_cons_behind lead cut (ih rest) ?_
    rintro rfl
    rfl

/-- Lines are alike to themselves with a text pending, as far as the slack allows it. -/
theorem inStep_aside {w : Slack} (allowed : w.AllowsPending [] p) (lead : CanLead p)
    (cut : Cut ls) : InStep (Line.Alike w) false ls (ls.map (aside p)) := by
  induction ls with
  | nil => exact .nil
  | cons l ls ih =>
    obtain ⟨pending, lf, -, -, rest⟩ := cut
    refine .cons ⟨rfl, .inr ?_, ⟨?_, ?_⟩, .inl rfl⟩ (ih rest)
    · rwa [pending]
    · rwa [body, pending]
    · intro mem
      rcases List.mem_append.1 mem with front | inside
      · exact lead.2.1 front
      · exact lf inside

end Line

end TierLint
