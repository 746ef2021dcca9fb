import TierLint.Proofs.Block.Locality
import TierLint.Proofs.Block.Shape
import TierLint.Proofs.Document.Origin
import TierLint.Proofs.Text.Trim

/-!
# Lines that interrupt a paragraph and open nothing

A paragraph ends at a line that seems to open another block. The test trims white space of any kind;
the recognisers of fences and quotes take away spaces and tabs only. So a line whose fence or quote
marker stands behind other white space interrupts a paragraph and opens none of these blocks
(`Line.interruptsInVain_iff`): it is running text again.

In the tree this shows as two paragraphs side by side, and nothing else does
(`Document.adjacentParagraphs_iff`).
-/

set_option autoImplicit false

namespace TierLint

open Element List Text

/-! ## Interrupting lines -/

namespace Line

/-- A fence or a quote marker stands in the line behind white space that is no indentation. -/
def interruptsInVain (l : Line) : Bool :=
  l.indent ≤ 3 && trimStart l.content != unindented l.content
    && ((Fence.open? (trimStart l.content)).isSome || startsBy (· == '>') (trimStart l.content))

variable {l : Line}

theorem exists_cons_of_interruptsInVain (h : l.interruptsInVain = true) :
    ∃ c rest, trimStart l.content = c :: rest ∧ (c = '`' ∨ c = '~' ∨ c = '>') := by
  rw [interruptsInVain, Bool.and_eq_true, Bool.or_eq_true] at h
  rcases h.2 with fence | quote
  · obtain ⟨fence, found⟩ := Option.isSome_iff_exists.1 fence
    obtain ⟨c, rest, eq, mark⟩ := Fence.exists_cons_of_open? found
    exact ⟨c, rest, eq, by tauto⟩
  · obtain ⟨rest, eq⟩ := eq_cons_of_startsBy quote
    exact ⟨'>', rest, eq, .inr (.inr rfl)⟩

/-- Such a line is running text: its first character behind the indentation is white space, and what
is left of it when that is trimmed begins with a character that opens neither a heading nor a
thematic break nor HTML. -/
theorem opener_of_interruptsInVain (h : l.interruptsInVain = true) : l.opener = .text := by
  obtain ⟨c, rest, eq, mark⟩ := exists_cons_of_interruptsInVain h
  simp only [interruptsInVain, Bool.and_eq_true, decide_eq_true_eq, bne_iff_ne] at h
  obtain ⟨⟨indent, odd⟩, -⟩ := h
  obtain ⟨w, behind, start, ws, -⟩ := exists_cons_of_trimStart_ne odd
  have ne {d : Char} (hd : Unicode.isWhiteSpace d = false) : w ≠ d := by
    rintro rfl
    rw [ws] at hd
    cases hd
  refine opener_eq_text_iff.2 ⟨?_, ?_, ?_, ?_, ?_, ?_, ?_, ?_⟩
  · exact isBlank_eq_false_of_trimStart (by rw [eq]; exact cons_ne_nil c rest)
  · rw [fence?, if_pos indent]
    refine Option.eq_none_iff_forall_ne_some.2 fun fence found => ?_
    obtain ⟨d, more, same, sign⟩ := Fence.exists_cons_of_open? found
    rw [start] at same
    cases same
    rcases sign with rfl | rfl <;> exact absurd ws (by decide)
  · rw [AtxHeading.level?, eq]
    rcases mark with rfl | rfl | rfl <;> simp [runLength]
  · rw [ThematicBreak.isBreak, eq]
    rcases mark with rfl | rfl | rfl <;> simp
  · rw [Quote.isQuoted, start, startsBy]
    simp [ne (d := '>') (by decide)]
  · refine Option.eq_none_iff_forall_ne_some.2 fun m found => ?_
    obtain ⟨d, more, same, first⟩ := ListMarker.exists_cons_of_read? found
    rw [start] at same
    cases same
    rw [(ListMarker.ne_of_mem_or_isDigit first).1] at ws
    cases ws
  · rw [startsHtml, eq]
    rcases mark with rfl | rfl | rfl <;> simp [Html.startsBlock]
  · exact decide_eq_false (by omega)

/-- These are the lines that interrupt a paragraph and are running text. -/
theorem interruptsInVain_iff :
    l.interruptsInVain = true ↔ l.interruptsParagraph = true ∧ l.opener = .text := by
  constructor
  · intro h
    refine ⟨?_, opener_of_interruptsInVain h⟩
    simp only [interruptsInVain, Bool.and_eq_true, Bool.or_eq_true, decide_eq_true_eq] at h
    obtain ⟨⟨indent, -⟩, fence | quote⟩ := h
    · simp [interruptsParagraph, indent, fence]
    · simp [interruptsParagraph, indent, quote]
  · rintro ⟨interrupts, opens⟩
    obtain ⟨-, fence, level, isBreak, quoted, marker, html, -⟩ := opener_eq_text_iff.1 opens
    simp only [interruptsParagraph, Bool.and_eq_true, decide_eq_true_eq] at interrupts
    obtain ⟨indent, seems⟩ := interrupts
    -- all but the tests for a fence and a quote are those of the recognisers
    have unmarked : ListMarker.interrupts l.content = false := by
      rw [ListMarker.interrupts, marker]
    have plain : Html.startsBlock (trimStart l.content) = false := by
      simpa [startsHtml, indent] using html
    have looks : (Fence.open? (trimStart l.content)).isSome = true ∨
        startsBy (· == '>') (trimStart l.content) = true := by
      simpa [level, isBreak, unmarked, plain] using seems
    have odd : trimStart l.content ≠ unindented l.content := by
      intro same
      rw [same] at looks
      rw [fence?, if_pos indent] at fence
      rcases looks with looks | looks
      · rw [fence] at looks
        cases looks
      · simp [Quote.isQuoted, indent, looks] at quoted
    simpa [interruptsInVain, indent, odd] using looks

end Line

/-! ## Paragraphs side by side -/

namespace Block

variable {l k : Line} {ls ks : List Line}

/-- A line that interrupts a paragraph begins another one if it does so in vain and no underline
follows. -/
theorem kind_eq_paragraph_of_interrupts (h : l.interruptsParagraph = true) (ls : List Line) :
    (next l ls).1.kind = .paragraph ↔
      l.interruptsInVain = true ∧ (Paragraph.begin l ls).1.underline? = none := by
  rw [kind_eq_paragraph_iff, Line.interruptsInVain_iff, and_iff_right h]
  constructor
  · rintro ⟨opens, -, plain⟩
    exact ⟨opens, plain⟩
  · rintro ⟨opens, plain⟩
    refine ⟨opens, ?_, plain⟩
    obtain ⟨c, rest, eq, mark⟩ :=
      Line.exists_cons_of_interruptsInVain (Line.interruptsInVain_iff.2 ⟨h, opens⟩)
    have noRow : Table.isRow l = false := by
      rw [Table.isRow, eq, startsBy]
      rcases mark with rfl | rfl | rfl <;> simp
    cases ls with
    | nil => rfl
    | cons k ls => simp [Table.read?, noRow]

/-- Behind a paragraph stands a blank line, or one that interrupts it. -/
theorem interrupts_of_paragraph (h : (next l ls).1.kind = .paragraph)
    (behind : (next l ls).2 = k :: ks) : k.isBlank = true ∨ k.interruptsParagraph = true := by
  obtain ⟨opens, noTable, plain⟩ := kind_eq_paragraph_iff.1 h
  rw [next_of_text opens noTable] at behind
  have left := (Paragraph.begin_snd_of_underline? plain).symm.trans behind
  rw [Paragraph.begin] at plain
  dsimp only at plain
  rw [left] at plain
  have noUnderline : Paragraph.isUnderline k = false := by
    simpa [Option.filter] using plain
  have ends := head?_dropWhile_not Paragraph.continues ls
  rw [left] at ends
  by_contra no
  rw [not_or, Bool.not_eq_true, Bool.not_eq_true] at no
  have ends : Paragraph.continues k = false := ends
  simp [Paragraph.continues, noUnderline, no.1, no.2] at ends

end Block

/-- Two paragraphs stand side by side among the elements. -/
def AdjacentParagraphs (es : List Element) : Prop :=
  ∃ front x y back, es = front ++ x :: y :: back ∧ x.isParagraph = true ∧ y.isParagraph = true

namespace AdjacentParagraphs

variable {e : Element} {es fs : List Element}

theorem of_suffix (h : AdjacentParagraphs es) (suffix : es <:+ fs) : AdjacentParagraphs fs := by
  obtain ⟨front, x, y, back, rfl, hx, hy⟩ := h
  obtain ⟨more, rfl⟩ := suffix
  exact ⟨more ++ front, x, y, back, (append_assoc ..).symm, hx, hy⟩

/-- Two paragraphs side by side stand behind the first element, or it is one of them. -/
theorem of_cons (h : AdjacentParagraphs (e :: es)) :
    (e.isParagraph = true ∧ ∃ y back, es = y :: back ∧ y.isParagraph = true) ∨
      AdjacentParagraphs es := by
  obtain ⟨front, x, y, back, eq, hx, hy⟩ := h
  cases front with
  | nil =>
    cases eq
    exact .inl ⟨hx, y, back, rfl, hy⟩
  | cons first front =>
    cases eq
    exact .inr ⟨front, x, y, back, rfl, hx, hy⟩

theorem of_append (h : AdjacentParagraphs (fs ++ es)) (none : ∀ e ∈ fs, e.isParagraph = false) :
    AdjacentParagraphs es := by
  induction fs with
  | nil => exact h
  | cons f fs ih =>
    obtain ⟨first, others⟩ := forall_mem_cons.1 none
    rcases h.of_cons with ⟨paragraph, -⟩ | h
    · rw [first] at paragraph
      cases paragraph
    · exact ih h others

theorem not_of_forall (none : ∀ e ∈ es, e.isParagraph = false) : ¬AdjacentParagraphs es := by
  rintro ⟨front, x, y, back, rfl, hx, -⟩
  rw [none x (mem_append_right front mem_cons_self)] at hx
  cases hx

end AdjacentParagraphs

namespace Block

variable {lines : List Line} {e : Element} {es : List Element}

/-- Two paragraphs side by side in a node are elements of lines that parsing comes to. -/
theorem Origin.exists_of_adjacent (origin : Origin lines e)
    (h : AdjacentParagraphs e.children) :
    ∃ rest es, LeadsTo lines rest ∧ elementsOf rest = .ok es ∧ AdjacentParagraphs es := by
  rcases origin.children_cases with ⟨opening, rest, es, eq, tokens, leads, ok⟩ | others
  · rw [eq] at h
    refine ⟨rest, es, leads, ok, h.of_append fun x hx => ?_⟩
    rw [isParagraph, tokens x hx, Bool.false_and]
  · refine absurd h (AdjacentParagraphs.not_of_forall fun x hx => ?_)
    rcases others x hx with part | item | blank
    · exact part.isParagraph_eq_false
    · rw [isParagraph, item, Bool.and_eq_false_iff]
      exact .inr rfl
    · rw [isParagraph, blank, Bool.and_eq_false_iff]
      exact .inr rfl

/-- Two paragraphs side by side are read from lines one behind the other. -/
theorem exists_of_adjacent (h : elementsOf lines = .ok es) :
    AdjacentParagraphs es → ∃ l ls k ks, LeadsTo lines (l :: ls) ∧
      (next l ls).1.kind = .paragraph ∧ (next l ls).2 = k :: ks ∧
      (next k ks).1.kind = .paragraph := by
  refine (elementsOf_induction (P := fun lines es =>
    (∀ y back, es = y :: back → y.isParagraph = true →
      ∃ k ks, lines = k :: ks ∧ (next k ks).1.kind = .paragraph) ∧
    (AdjacentParagraphs es → ∃ l ls k ks, LeadsTo lines (l :: ls) ∧
      (next l ls).1.kind = .paragraph ∧ (next l ls).2 = k :: ks ∧
      (next k ks).1.kind = .paragraph)) ?_ ?_ h).2
  · refine ⟨nofun, fun h => ?_⟩
    exact absurd h (AdjacentParagraphs.not_of_forall (forall_mem_nil _))
  · rintro l ls b rest inner first others eq - he ⟨starts, ih⟩
    have kind : first.isParagraph = true ↔ (next l ls).1.kind = .paragraph := by
      rw [eq]
      exact isParagraph_eq_true_iff he
    refine ⟨fun y back cons paragraph => ?_, fun adjacent => ?_⟩
    · cases cons
      exact ⟨l, ls, rfl, kind.1 paragraph⟩
    · rcases adjacent.of_cons with ⟨paragraph, y, back, rfl, second⟩ | adjacent
      · obtain ⟨k, ks, rfl, next⟩ := starts y back rfl second
        exact ⟨l, ls, k, ks, .refl _, kind.1 paragraph, by rw [eq], next⟩
      · obtain ⟨l', ls', k, ks, leads, found⟩ := ih adjacent
        have behind : LeadsTo (l :: ls) rest := by
          have step := LeadsTo.behind l ls
          rwa [eq] at step
        exact ⟨l', ls', k, ks, behind.trans leads, found⟩

end Block

namespace Document

variable {t : Text} {tree : Element}

/-- **Interruption.** A line that interrupts a paragraph begins another paragraph exactly if it does so
in vain and no underline follows its text. Two paragraphs stand side by side in a tree exactly if
parsing comes to a paragraph that such a line follows. -/
theorem adjacentParagraphs_iff (h : parse t = .ok tree) :
    (∀ l ls, l.interruptsParagraph = true → ((Block.next l ls).1.kind = .paragraph ↔
      l.interruptsInVain = true ∧ (Paragraph.begin l ls).1.underline? = none)) ∧
    ((∃ v ∈ tree.visits, AdjacentParagraphs v.element.children) ↔
      ∃ l ls k ks, Block.LeadsTo (body t) (l :: ls) ∧ (Block.next l ls).1.kind = .paragraph ∧
        (Block.next l ls).2 = k :: ks ∧ k.interruptsInVain = true ∧
        (Paragraph.begin k ks).1.underline? = none) := by
  refine ⟨fun l ls interrupts => Block.kind_eq_paragraph_of_interrupts interrupts ls, ?_, ?_⟩
  · rintro ⟨v, hv, adjacent⟩
    obtain ⟨es, hes, source⟩ := source_of_mem_visits h
    have source := source v hv
    generalize v.element = e at adjacent source
    -- the paragraphs are elements of lines that parsing comes to
    obtain ⟨rest, fs, leads, hfs, adjacent⟩ : ∃ rest fs, Block.LeadsTo (body t) rest ∧
        Block.elementsOf rest = .ok fs ∧ AdjacentParagraphs fs := by
      cases source with
      | root =>
        exact absurd adjacent (AdjacentParagraphs.not_of_forall (forall_mem_singleton.2 rfl))
      | document =>
        refine ⟨body t, es, .refl _, hes, adjacent.of_append fun x hx => ?_⟩
        rw [isParagraph, kind_of_mem_frontMatter hx, Bool.and_eq_false_iff]
        exact .inr rfl
      | frontMatter tokens =>
        refine absurd adjacent (AdjacentParagraphs.not_of_forall fun x hx => ?_)
        rw [isParagraph, tokens x hx, Bool.false_and]
      | body origin => exact origin.exists_of_adjacent adjacent
    obtain ⟨l, ls, k, ks, leads', first, behind, second⟩ := Block.exists_of_adjacent hfs adjacent
    refine ⟨l, ls, k, ks, leads.trans leads', first, behind, ?_⟩
    rcases Block.interrupts_of_paragraph first behind with blank | interrupts
    · rw [Block.next_of_isBlank blank] at second
      cases second
    · exact (Block.kind_eq_paragraph_of_interrupts interrupts ks).1 second
  · rintro ⟨l, ls, k, ks, leads, first, behind, vain⟩
    have interrupts := (Line.interruptsInVain_iff.1 vain.1).1
    have second := (Block.kind_eq_paragraph_of_interrupts interrupts ks).2 vain
    obtain ⟨es, hes, v, hv, suffix⟩ := exists_parent_of_leadsTo h leads
    obtain ⟨_, x, _, -, hx, others, rfl⟩ := Block.elementsOf_cons_eq_ok hes
    rw [behind] at others
    obtain ⟨_, y, back, -, hy, -, rfl⟩ := Block.elementsOf_cons_eq_ok others
    refine ⟨v, hv, .of_suffix ⟨[], x, y, back, rfl, ?_, ?_⟩ suffix⟩
    · exact (Block.isParagraph_eq_true_iff hx).2 first
    · exact (Block.isParagraph_eq_true_iff hy).2 second

/-- An item with a paragraph that a fence behind a no-break space ends. -/
theorem adjacentParagraphs_iff_item :
    let t := "- a\n  \u00a0~~~\n".toList
    ∃ tree, parse t = .ok tree ∧
      ((∃ v ∈ tree.visits, AdjacentParagraphs v.element.children) ↔
        ∃ l ls k ks, Block.LeadsTo (body t) (l :: ls) ∧ (Block.next l ls).1.kind = .paragraph ∧
          (Block.next l ls).2 = k :: ks ∧ k.interruptsInVain = true ∧
          (Paragraph.begin k ks).1.underline? = none) := by
  intro t
  have found : (parse t).isOk = true := by decide +kernel
  obtain ⟨tree, parsed⟩ := exists_of_isOk found
  exact ⟨tree, parsed, (adjacentParagraphs_iff parsed).2⟩

/-- A quote marker behind a form feed ends a paragraph and begins another one. -/
theorem paragraph_behind_paragraph :
    let t := "a\n\x0c> b\n".toList
    let l : Line := ⟨[], "\x0c> b".toList, .lf⟩
    l.interruptsParagraph = true ∧ (Block.next l []).1.kind = .paragraph ∧
      parse t = .ok (Document.tree
        [.node .paragraph [.token .text ['a'], .token .newline ['\n']],
         .node .paragraph [.token .text "\x0c> b".toList, .token .newline ['\n']]]) := by
  dsimp only
  exact ⟨by decide +kernel, by decide +kernel, by decide +kernel⟩

end Document

end TierLint
