import TierLint.Proofs.Block.Progress
import TierLint.Proofs.Document.Origin
import TierLint.Proofs.Text.Bytes
import TierLint.Proofs.Text.Trim

/-!
# Texts that have a syntax tree

Only the marker of a heading can keep a text from having a syntax tree, when white space that is no
indentation stands in front of it. A text whose only white space is spaces, tabs and line ends
(`Text.isOrdinary`) consists of lines whose only white space is indentation (`ordinary_ofText`).
Blocks hand such lines down to containers (`ordinary_of_leadsTo`), and on such lines a heading's
marker begins behind the indentation (`AtxHeading.splitAtByte_eq_some`). So parsing comes to no
heading that fails, and the text has a tree (`Document.exists_parse`).
-/

set_option autoImplicit false

namespace TierLint

/-- The only white space of the text is spaces, tabs and line ends: line feeds, and carriage returns
in front of them. -/
def Text.isOrdinary : Text → Bool
  | [] => true
  | c :: t =>
    (!Unicode.isWhiteSpace c || Text.isIndentChar c || c == '\n' ||
      (c == '\r' && t.head? == some '\n')) && isOrdinary t

/-- The only white space of the line is spaces and tabs. -/
def Line.Ordinary (l : Line) : Prop :=
  ∀ c ∈ l.body, Unicode.isWhiteSpace c = true → Text.isIndentChar c = true

namespace Line

/-! ## Lines of a text -/

theorem ordinary_of_body_eq_nil {l : Line} (h : l.body = []) : l.Ordinary := by
  intro c hc
  rw [h] at hc
  cases hc

/-- A character joins the first line or is a line end. -/
theorem ordinary_consChar {c : Char} {ls : List Line} (h : ∀ l ∈ ls, l.Ordinary)
    (hc : Unicode.isWhiteSpace c = true → Text.isIndentChar c = true ∨ c = '\n') :
    ∀ l ∈ consChar c ls, l.Ordinary := by
  unfold consChar
  split
  · exact List.forall_mem_cons.2 ⟨ordinary_of_body_eq_nil rfl, h⟩
  · rename_i notLf
    have indent : Unicode.isWhiteSpace c = true → Text.isIndentChar c = true := by
      intro ws
      rcases hc ws with yes | lf
      · exact yes
      · exact absurd (beq_iff_eq.2 lf) notLf
    cases ls with
    | nil =>
      -- a line of its own
      intro l hl d hd
      rw [List.mem_singleton.1 hl] at hd
      obtain rfl := List.mem_singleton.1 hd
      exact indent
    | cons l ls =>
      obtain ⟨first, others⟩ := List.forall_mem_cons.1 h
      simp only
      split
      · -- a carriage return that joins the line feed behind it
        exact List.forall_mem_cons.2 ⟨ordinary_of_body_eq_nil rfl, others⟩
      · -- the first character of the line's content
        refine List.forall_mem_cons.2 ⟨fun d hd => ?_, others⟩
        rcases List.mem_append.1 hd with hd | hd
        · exact first d (List.mem_append_left _ hd)
        · rcases List.mem_cons.1 hd with rfl | hd
          · exact indent
          · exact first d (List.mem_append_right _ hd)

/-- The lines of a text with nothing but ordinary white space. -/
theorem ordinary_ofText {t : Text} (h : t.isOrdinary = true) : ∀ l ∈ ofText t, l.Ordinary := by
  induction t with
  | nil =>
    intro l hl
    cases hl
  | cons c t ih =>
    rw [Text.isOrdinary, Bool.and_eq_true] at h
    have later := ih h.2
    rw [ofText, List.foldr_cons, ← ofText]
    by_cases cr : c = '\r' ∧ t.head? = some '\n'
    · -- the two make up a line end
      obtain ⟨rfl, lf⟩ := cr
      obtain ⟨t, rfl⟩ : ∃ v, t = '\n' :: v := by
        cases t with
        | nil => cases lf
        | cons d v => exact ⟨v, by rw [Option.some.inj lf]⟩
      rw [ofText, List.foldr_cons, ← ofText] at later ⊢
      exact List.forall_mem_cons.2 ⟨ordinary_of_body_eq_nil rfl, (List.forall_mem_cons.1 later).2⟩
    · refine ordinary_consChar later fun ws => ?_
      have cases := h.1
      simp only [ws, Bool.not_true, Bool.false_or, Bool.or_eq_true, beq_iff_eq, Bool.and_eq_true,
        cr, or_false] at cases
      exact cases

end Line

/-! ## Lines that parsing comes to -/

theorem Line.Ordinary.advance {l : Line} (h : l.Ordinary) (n : Nat) : (l.advance n).Ordinary := by
  have same : (l.advance n).body = l.body := congrArg Prod.fst (l.face_advance n)
  rwa [Ordinary, same]

theorem Line.Ordinary.consume {l : Line} (h : l.Ordinary) (n : Nat) : (l.consume n).Ordinary := by
  intro c hc
  refine h c (List.mem_append_right _ ?_)
  exact List.mem_of_mem_drop (by simpa [body, Line.consume] using hc)

/-- Containers hand down lines that they have moved something aside in, and what is left of an
ordinary line is ordinary. -/
theorem ordinary_of_leadsTo {lines rest : List Line} (leads : Block.LeadsTo lines rest)
    (h : ∀ l ∈ lines, l.Ordinary) : ∀ l ∈ rest, l.Ordinary := by
  apply leads.forall_mem _ _ _ h
  · intro l _ ordinary
    exact ordinary.advance _
  · intro l n ordinary
    exact ordinary.consume n
  · intro l offset ordinary
    exact ordinary.advance _

/-! ## Headings -/

/-- A marker that begins behind the indentation is cut off as the run that the level counts. -/
theorem AtxHeading.splitAtByte_eq_some {content : Text} {n : Nat}
    (indented : content.trimStart = content.unindented) (marker : level? content = some n) :
    Text.splitAtByte n content.unindented =
      some (List.replicate n '#', Text.afterRun '#' content.unindented) := by
  have run : Text.runLength '#' content.unindented = n := by
    rw [level?, indented] at marker
    split at marker
    · exact Option.some.inj marker
    · cases marker
  have split := Text.replicate_runLength_append_afterRun '#' content.unindented
  have length : Text.byteLength (List.replicate n '#') = n := Text.byteLength_replicate (by decide) _
  rw [run] at split
  exact Text.splitAtByte_eq_some_iff.2 ⟨split.symm, length⟩

/-- The marker of a heading in an ordinary line begins behind the indentation. -/
theorem Line.Ordinary.not_markerSplits {l : Line} (h : l.Ordinary) : ¬ l.MarkerSplits := by
  rintro ⟨level, opens, splits⟩
  have indented := Text.trimStart_eq_unindented fun c hc =>
    h c (List.mem_append_right l.pending hc)
  rw [AtxHeading.splitAtByte_eq_some indented (Line.level?_of_opener opens)] at splits
  cases splits

/-- Lines whose only white space is indentation have elements. -/
theorem Block.exists_elementsOf {ls : List Line} (ordinary : ∀ k ∈ ls, k.Ordinary) :
    ∃ es, elementsOf ls = .ok es := by
  apply failure?_eq_none_iff.1
  apply failure?_elementsOf_eq_none_iff.2
  intro k ks leads
  exact (ordinary_of_leadsTo leads ordinary k List.mem_cons_self).not_markerSplits

/-- A text with nothing but ordinary white space has a syntax tree. -/
theorem Document.exists_parse {t : Text} (ordinary : t.isOrdinary = true) :
    ∃ tree, Document.parse t = .ok tree := by
  have lines : ∀ l ∈ body t, l.Ordinary := fun l hl =>
    Line.ordinary_ofText ordinary l ((body_suffix t).subset hl)
  obtain ⟨es, made⟩ := Block.exists_elementsOf lines
  exact ⟨_, parse_eq_ok_iff_body.2 ⟨es, made, rfl⟩⟩

end TierLint
