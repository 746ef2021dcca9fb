import TierLint.Proofs.Block.Locality
import TierLint.Proofs.Syntax.Alike
import TierLint.Proofs.Text.Run

/-!
# Blocks are recognised on the content of lines

Whatever containers moved aside in front of a line's content, and however the line ends, the line is
read in the same way. So lines that differ in that only (`Line.Alike`) give blocks of the same kinds
around such lines (`Block.next_alike`), and elements that are alike (`Block.elementsOf_alike`).

Each recogniser reads lines in step and leaves lines in step (`ReadsAlike`); each block writes what
it took in the same way (`Block.element_alike`).
-/

set_option autoImplicit false

namespace TierLint

open Element

variable {w : Slack} {last : Bool}

/-- What is pending may differ: altogether, or else by white space in front of the second text. -/
def Slack.AllowsPending (w : Slack) (s t : Text) : Prop :=
  w.fillers = true ∧ (w.markers = true ∨ ∃ p, '>' ∉ p ∧ t = p ++ s)

theorem Slack.AllowsPending.append {s t : Text} (h : w.AllowsPending s t) (u : Text) :
    w.AllowsPending (s ++ u) (t ++ u) := by
  refine ⟨h.1, h.2.imp_right ?_⟩
  rintro ⟨p, blank, rfl⟩
  exact ⟨p, blank, List.append_assoc p s u⟩

/-- Lines with the same content that may differ, as far as the slack says, in what is pending and in
the form of their ending. Only at the end of the document may the first one lack an ending. -/
structure Line.Alike (w : Slack) (last : Bool) (l k : Line) : Prop where
  content : l.content = k.content
  pending : l.pending = k.pending ∨ w.AllowsPending l.pending k.pending
  inside : '\n' ∉ l.body ∧ '\n' ∉ k.body
  ending : l.ending = k.ending ∨ w.lineEnds = true ∧
    (l.ending = .lf ∧ k.ending = .crlf ∨ last = true ∧ l.ending = .none ∧ k.ending = .lf)

namespace Line.Alike

variable {l k : Line}

theorem refl (inside : '\n' ∉ l.body) : Line.Alike w last l l :=
  ⟨rfl, .inl rfl, ⟨inside, inside⟩, .inl rfl⟩

theorem weaken (h : Line.Alike w false l k) : Line.Alike w last l k := by
  obtain ⟨content, pending, inside, ending⟩ := h
  refine ⟨content, pending, inside, ending.imp_right fun ⟨free, h⟩ => ⟨free, .inl ?_⟩⟩
  rcases h with h | ⟨no, -⟩
  · exact h
  · cases no

theorem isBlank_eq (h : Line.Alike w last l k) : l.isBlank = k.isBlank := by
  rw [isBlank, isBlank, h.content]

theorem indent_eq (h : Line.Alike w last l k) : l.indent = k.indent := by
  rw [indent, indent, h.content]

theorem interruptsParagraph_eq (h : Line.Alike w last l k) :
    l.interruptsParagraph = k.interruptsParagraph := by
  rw [interruptsParagraph, interruptsParagraph, h.indent_eq, h.content]

/-- Containers move the same part of both lines aside. -/
theorem advance (h : Line.Alike w last l k) (n : Nat) :
    Line.Alike w last (l.advance n) (k.advance n) := by
  obtain ⟨content, pending, ⟨hl, hk⟩, ending⟩ := h
  have body : ∀ j : Line, (j.advance n).body = j.body := fun j => by simp [body, Line.advance]
  refine ⟨?_, ?_, by rw [body, body]; exact ⟨hl, hk⟩, ending⟩
  · exact congrArg (List.drop n) content
  · simp only [Line.advance, content]
    exact pending.imp (congrArg (· ++ _)) fun allowed => allowed.append _

theorem consume (h : Line.Alike w last l k) (n : Nat) :
    Line.Alike w last (l.consume n) (k.consume n) := by
  obtain ⟨content, -, ⟨hl, hk⟩, ending⟩ := h
  have body : ∀ {j : Line}, '\n' ∉ j.body → '\n' ∉ (j.consume n).body := fun hj mem =>
    hj (List.mem_append_right _ (List.mem_of_mem_drop (by simpa [body, Line.consume] using mem)))
  exact ⟨congrArg (List.drop n) content, .inl rfl, ⟨body hl, body hk⟩, ending⟩

/-! ## What is written for a line -/

/-- What is pending is written as white space and quote markers. -/
theorem mem_pendingElements {e : Element} (hl : '\n' ∉ l.body) (he : e ∈ l.pendingElements) :
    ∃ k t, e = .token k t ∧ k.isFiller = true ∧ '\n' ∉ t := by
  have hp : '\n' ∉ l.pending := fun mem => hl (List.mem_append_left _ mem)
  obtain ⟨run, mem, rfl⟩ := List.mem_map.1 he
  refine ⟨_, run, rfl, by split <;> rfl, fun lf => hp ?_⟩
  have whole := List.flatten_splitBy (fun a b => (a == '>') == (b == '>')) l.pending
  exact whole ▸ List.mem_flatten_of_mem mem lf

/-- What is pending is written as white space up to the first quote marker, if there is any, and then
as the rest is. -/
theorem pendingElements_eq (l : Line) :
    l.pendingElements = Element.spacing (l.pending.takeWhile (· != '>')) ++
      Line.pendingElements { l with pending := l.pending.dropWhile (· != '>') } := by
  rw [Line.pendingElements, Line.pendingElements]
  cases l.pending with
  | nil => rfl
  | cons c t =>
    by_cases marker : c = '>'
    · subst marker
      rfl
    · have other : (c == '>') = false := beq_eq_false_iff_ne.2 marker
      have blank : (fun x : Char => (x == '>') == (c == '>')) = (· != '>') := by
        funext x
        rw [other, bne]
        cases x == '>' <;> rfl
      have goes : (c :: t).takeWhile (· != '>') = c :: t.takeWhile (· != '>') :=
        List.takeWhile_cons_of_pos (bne_iff_ne.2 marker)
      rw [Text.splitBy_cons (· == '>'), blank, goes, List.map_cons, List.head?_cons,
        if_neg (by simpa using marker)]
      rfl

/-- More white space in front of what is pending changes the white space in front only. -/
theorem pendingElements_of_append {p : Text} (free : w.fillers = true) (blank : '>' ∉ p)
    (pending : k.pending = p ++ l.pending) (inside : '\n' ∉ l.body ∧ '\n' ∉ k.body)
    (last' : Bool) : TierLint.Alike w last' l.pendingElements k.pendingElements := by
  have spaces {j : Line} (hj : '\n' ∉ j.body) :
      ∀ e ∈ Element.spacing (j.pending.takeWhile (· != '>')),
        ∃ k t, e = .token k t ∧ w.frees k = true ∧ '\n' ∉ t := by
    refine fun e he => ⟨.whitespace, j.pending.takeWhile (· != '>'), ?_, rfl, fun mem => hj ?_⟩
    · rw [Element.spacing, Element.tokenUnlessEmpty] at he
      split at he
      · cases he
      · exact List.mem_singleton.1 he
    · exact List.mem_append_left _ ((List.takeWhile_prefix _).subset mem)
  have same : k.pending.dropWhile (· != '>') = l.pending.dropWhile (· != '>') := by
    rw [pending]
    refine List.dropWhile_append_of_pos fun c mem => bne_iff_ne.2 ?_
    rintro rfl
    exact blank mem
  rw [pendingElements_eq l, pendingElements_eq k]
  refine .append_inner (.of_fillers free (spaces inside.1) (spaces inside.2)) ?_
  rw [Line.pendingElements, Line.pendingElements, same]
  exact .refl w last' _

theorem pendingElements (h : Line.Alike w last l k) (last' : Bool) :
    TierLint.Alike w last' l.pendingElements k.pendingElements := by
  rcases h.pending with same | ⟨free, markers | ⟨p, blank, pending⟩⟩
  · rw [Line.pendingElements, same]
    exact .refl w last' _
  · have frees {e : Element} :
        (∃ k t, e = .token k t ∧ k.isFiller = true ∧ '\n' ∉ t) →
          ∃ k t, e = .token k t ∧ w.frees k = true ∧ '\n' ∉ t := by
      rintro ⟨k, t, eq, hk, ht⟩
      exact ⟨k, t, eq, Slack.frees_of_markers markers hk, ht⟩
    exact .of_fillers free (fun e he => frees (mem_pendingElements h.inside.1 he))
      (fun e he => frees (mem_pendingElements h.inside.2 he))
  · exact pendingElements_of_append free blank pending h.inside last'

theorem endingElements (h : Line.Alike w last l k) :
    TierLint.Alike w last l.endingElements k.endingElements := by
  rw [Line.endingElements, Line.endingElements]
  rcases h.ending with same | ⟨free, ⟨lf, crlf⟩ | ⟨rfl, none, lf⟩⟩
  · rw [same]
    exact .refl w last _
  · rw [lf, crlf]
    exact .lineEnd free .nil
  · rw [none, lf]
    exact .finalEnd free

theorem elementsWith (h : Line.Alike w last l k) (content : List Element) :
    TierLint.Alike w last (l.elementsWith content) (k.elementsWith content) :=
  ((h.pendingElements false).append_inner (.refl w false content)).append_inner h.endingElements

theorem elements (h : Line.Alike w last l k) (kind : Kind) :
    TierLint.Alike w last (l.elements kind) (k.elements kind) := by
  rw [Line.elements, Line.elements, h.content]
  exact h.elementsWith _

theorem blankElement (h : Line.Alike w last l k) :
    TierLint.Alike w last [l.blankElement] [k.blankElement] :=
  .singleton (h.elements .whitespace)

end Line.Alike

/-- The lines in step, each with its content as one token. -/
theorem InStep.flatMap_elements {ls ks : List Line} (h : InStep (Line.Alike w) last ls ks)
    (kind : Kind) :
    Alike w last (ls.flatMap (·.elements kind)) (ks.flatMap (·.elements kind)) :=
  Alike.flatMap (fun _ _ _ h => h.elements kind) h

/-! ## Leaf blocks -/

/-- On lines in step, the reader finds related things and leaves lines in step, or finds nothing
on either side. -/
def ReadsAlike {α : Type} (w : Slack) (R : Bool → α → α → Prop)
    (read? : List Line → Option (α × List Line)) : Prop :=
  ∀ {last : Bool} {ls ks : List Line}, InStep (Line.Alike w) last ls ks →
    Option.Rel (fun x y => R (last && x.2.isEmpty) x.1 y.1 ∧ InStep (Line.Alike w) last x.2 y.2)
      (read? ls) (read? ks)

theorem ReadsAlike.map {α β : Type} {R : Bool → α → α → Prop} {S : Bool → β → β → Prop}
    {read? : List Line → Option (α × List Line)} (h : ReadsAlike w R read?) {f : α → β}
    (step : ∀ b x y, R b x y → S b (f x) (f y)) :
    ReadsAlike w S fun lines => (read? lines).map fun (x, rest) => (f x, rest) := by
  intro last ls ks lines
  have found := h lines
  dsimp only
  generalize read? ls = x at found ⊢
  generalize read? ks = y at found ⊢
  cases found with
  | none => exact .none
  | some found => exact .some ⟨step _ _ _ found.1, found.2⟩

/-! Blank lines, headings and thematic breaks take one line. -/

theorem Block.readBlank?_alike : ReadsAlike w (Line.Alike w) Block.readBlank? := by
  intro last ls ks h
  cases h with
  | nil => exact .none
  | cons first others =>
    rw [readBlank?, readBlank?, first.isBlank_eq]
    split
    · exact .some ⟨first, others⟩
    · exact .none

/-- Headings of one level on lines that are alike. -/
structure AtxHeading.Alike (w : Slack) (last : Bool) (h k : AtxHeading) : Prop where
  level : h.level = k.level
  line : Line.Alike w last h.line k.line

theorem AtxHeading.read?_alike : ReadsAlike w (AtxHeading.Alike w) AtxHeading.read? := by
  intro last ls ks h
  cases h with
  | nil => exact .none
  | cons first others =>
    rw [read?, read?, first.content]
    cases level? _ with
    | none => exact .none
    | some level => exact .some ⟨⟨rfl, first⟩, others⟩

/-- The marker is cut off in the same way, or fails to be. -/
theorem AtxHeading.element_alike {h k : AtxHeading} (alike : AtxHeading.Alike w last h k)
    {e : Element} (he : h.element = .ok e) :
    ∃ f, k.element = .ok f ∧ TierLint.Alike w last [e] [f] := by
  rw [element, alike.level, alike.line.content] at he
  rw [element]
  cases cut : Text.splitAtByte k.level (Text.unindented k.line.content) with
  | none =>
    rw [cut] at he
    cases he
  | some parts =>
    rw [cut] at he
    cases he
    exact ⟨_, rfl, .singleton (alike.line.elementsWith _)⟩

theorem ThematicBreak.read?_alike : ReadsAlike w (Line.Alike w) ThematicBreak.read? := by
  intro last ls ks h
  cases h with
  | nil => exact .none
  | cons first others =>
    rw [read?, read?, first.content]
    split
    · exact .some ⟨first, others⟩
    · exact .none

theorem ThematicBreak.element_alike {l k : Line} (h : Line.Alike w last l k) :
    TierLint.Alike w last [ThematicBreak.element l] [ThematicBreak.element k] := by
  rw [ThematicBreak.element, ThematicBreak.element, h.content]
  exact .singleton (h.elementsWith _)

/-! The others read on. -/

/-- Fenced code blocks with one fence, line by line alike. -/
structure FencedCode.Alike (w : Slack) (last : Bool) (b c : FencedCode) : Prop where
  fence : b.fence = c.fence
  opening : Line.Alike w (last && b.content.isEmpty && b.closing?.isNone) b.opening c.opening
  content : InStep (Line.Alike w) (last && b.closing?.isNone) b.content c.content
  closing : Option.Rel (Line.Alike w last) b.closing? c.closing?

theorem Fence.closedBy_eq (f : Fence) {l k : Line} (h : Line.Alike w last l k) :
    f.closedBy l = f.closedBy k := by
  rw [closedBy, closedBy, h.indent_eq, h.content]

theorem FencedCode.read?_alike : ReadsAlike w (FencedCode.Alike w) FencedCode.read? := by
  intro last ls ks h
  cases h with
  | nil => exact .none
  | @cons l k ls ks first others =>
    rw [read?, read?, first.indent_eq, first.content]
    split
    · cases Fence.open? _ with
      | none => exact .none
      | some fence =>
        have agree : ∀ (b : Bool) (x y : Line), Line.Alike w b x y →
            (!fence.closedBy x) = (!fence.closedBy y) := fun _ _ _ h => by rw [fence.closedBy_eq h]
        have taken := others.takeWhile agree
        have left := others.dropWhile agree
        rw [← InStep.isEmpty_of_append (List.takeWhile_append_dropWhile
          (p := (!fence.closedBy ·)) (l := ls))] at first
        dsimp only [Option.map_some]
        generalize ls.takeWhile (!fence.closedBy ·) = content at first taken ⊢
        generalize ls.dropWhile (!fence.closedBy ·) = behind at first taken left ⊢
        generalize ks.dropWhile (!fence.closedBy ·) = behind' at left ⊢
        cases left with
        | nil => exact .some ⟨⟨rfl, by simpa using first, by simpa using taken, .none⟩, .nil⟩
        | cons closing rest =>
          exact .some ⟨⟨rfl, by simpa using first, by simpa using taken, .some closing⟩, rest⟩
    · exact .none

/-- The parts of the block are written one behind the other: opening fence, content and closing
fence. The line that ends the document may be in any of them. -/
theorem FencedCode.element_alike {b c : FencedCode} (h : FencedCode.Alike w last b c) :
    TierLint.Alike w last [b.element] [c.element] := by
  obtain ⟨fence, opening, content, closing⟩ := h
  have opened : b.openingElements = c.openingElements := by
    rw [openingElements, openingElements, opening.content, fence]
  have closed : ∀ l k, Line.Alike w last l k → TierLint.Alike w last
      (l.elementsWith (b.closingElements l)) (k.elementsWith (c.closingElements k)) := by
    intro l k h
    rw [closingElements, closingElements, fence, h.content]
    exact h.elementsWith _
  have first := opening.elementsWith c.openingElements
  have code := content.flatMap_elements .text
  rw [element, element, opened]
  generalize b.content = ls at content first code ⊢
  generalize c.content = ks at content code ⊢
  generalize b.closing? = l? at closing content first code ⊢
  generalize c.closing? = k? at closing ⊢
  refine .singleton ?_
  cases closing with
  | none =>
    cases content with
    | nil => exact .node (by simpa using first) .nil
    | cons => exact .node (by simpa using first) (.singleton (by simpa using code))
  | some final =>
    have final := (closed _ _ final).singleton (k := .codeFenceClose)
    cases content with
    | nil => exact .node (by simpa using first) final
    | cons =>
      exact .node (by simpa using first) (.append_inner (.singleton (by simpa using code)) final)

theorem Html.read?_alike : ReadsAlike w (InStep <| Line.Alike w) Html.read? := by
  intro last ls ks h
  cases h with
  | nil => exact .none
  | cons first others =>
    have agree : ∀ (b : Bool) (x y : Line), Line.Alike w b x y → (!x.isBlank) = (!y.isBlank) :=
      fun _ _ _ h => by rw [h.isBlank_eq]
    rw [read?, read?, first.indent_eq, first.content]
    split
    · exact .some ⟨(InStep.cons first others).cons_takeWhile agree, others.dropWhile agree⟩
    · exact .none

theorem Html.element_alike {ls ks : List Line} (h : InStep (Line.Alike w) last ls ks) :
    Alike w last [Html.element ls] [Html.element ks] :=
  .singleton (h.flatMap_elements .htmlContent)

theorem Line.reach_eq {accepts : Bool → Line → Bool}
    (agree : ∀ (b : Bool) (x y : Line), Line.Alike w b x y → ∀ a, accepts a x = accepts a y)
    {ls ks : List Line} (h : InStep (Line.Alike w) last ls ks) (afterBlank : Bool) :
    Line.reach accepts afterBlank ls = Line.reach accepts afterBlank ks := by
  induction h generalizing afterBlank with
  | nil => rfl
  | cons first _ ih => rw [Line.reach, Line.reach, first.isBlank_eq, agree _ _ _ first, ih, ih]

theorem IndentedCode.read?_alike : ReadsAlike w (InStep <| Line.Alike w) IndentedCode.read? := by
  intro last ls ks h
  cases h with
  | nil => exact .none
  | cons first others =>
    have agree : ∀ (b : Bool) (x y : Line), Line.Alike w b x y → isCode x = isCode y :=
      fun _ _ _ h => by rw [isCode, isCode, h.indent_eq]
    rw [read?, read?, first.isBlank_eq, agree _ _ _ first,
      Line.reach_eq (fun b x y h _ => agree b x y h) others]
    split
    · exact .some ⟨(InStep.cons first others).cons_take _, others.drop _⟩
    · exact .none

theorem IndentedCode.element_alike {ls ks : List Line} (h : InStep (Line.Alike w) last ls ks) :
    Alike w last [IndentedCode.element ls] [IndentedCode.element ks] :=
  .singleton (.singleton (h.flatMap_elements .text))

/-- Tables, row by row alike. -/
def Table.Alike (w : Slack) (last : Bool) (t u : Table) : Prop :=
  InStep (Line.Alike w) last t.all u.all

theorem Table.read?_alike : ReadsAlike w (Table.Alike w) Table.read? := by
  intro last ls ks h
  have isRow_eq : ∀ (b : Bool) (x y : Line), Line.Alike w b x y → isRow x = isRow y :=
    fun _ _ _ h => by rw [isRow, isRow, h.indent_eq, h.content]
  cases h with
  | nil => exact .none
  | cons header others =>
    cases others with
    | nil => exact .none
    | cons delimiter others =>
      have delimits : ∀ x y : Line, x.content = y.content → isRow x = isRow y →
          isDelimiterRow x = isDelimiterRow y := fun _ _ content row => by
        rw [isDelimiterRow, isDelimiterRow, content, row]
      rw [read?, read?, isRow_eq _ _ _ header,
        delimits _ _ delimiter.content (isRow_eq _ _ _ delimiter)]
      split
      · refine .some ⟨.cons ?_ ((InStep.cons delimiter others).cons_takeWhile isRow_eq),
          others.dropWhile isRow_eq⟩
        simpa using header
      · exact .none

theorem Table.rowElement_alike {l k : Line} (h : Line.Alike w last l k) :
    TierLint.Alike w last [rowElement l] [rowElement k] := by
  rw [rowElement, rowElement, h.content]
  exact .singleton (h.elementsWith _)

theorem Table.element_alike {t u : Table} (h : Table.Alike w last t u) :
    TierLint.Alike w last [t.element] [u.element] := by
  obtain ⟨header, delimiter, body⟩ := t
  obtain ⟨header', delimiter', body'⟩ := u
  cases h with
  | cons first others =>
    cases others with
    | cons second others =>
      have rows : TierLint.Alike w last (body.map rowElement) (body'.map rowElement) := by
        rw [List.map_eq_flatMap, List.map_eq_flatMap]
        exact .flatMap (fun _ _ _ h => rowElement_alike h) others
      have separator := second.elementsWith (trimmed .tableSeparator delimiter.content)
      rw [element, element, ← second.content]
      refine .singleton (.append_inner (rowElement_alike (by simpa using first)) (.node ?_ rows))
      rwa [List.isEmpty_map, List.isEmpty_map, Bool.and_assoc, ← others.isEmpty_eq, Bool.and_self]

/-- Paragraphs and headings, line by line alike. -/
structure Paragraph.Alike (w : Slack) (last : Bool) (p q : Paragraph) : Prop where
  lines : InStep (Line.Alike w) (last && p.underline?.isNone) p.lines q.lines
  underline : Option.Rel (Line.Alike w last) p.underline? q.underline?

theorem Paragraph.isUnderline_eq {l k : Line} (h : Line.Alike w last l k) :
    isUnderline l = isUnderline k := by
  rw [isUnderline, isUnderline, h.indent_eq, h.content]

theorem Paragraph.read?_alike : ReadsAlike w (Paragraph.Alike w) Paragraph.read? := by
  intro last ls ks h
  have agree : ∀ (b : Bool) (x y : Line), Line.Alike w b x y → continues x = continues y :=
    fun _ _ _ h => by
      rw [continues, continues, h.isBlank_eq, isUnderline_eq h, h.interruptsParagraph_eq]
  cases h with
  | nil => exact .none
  | @cons l k ls ks first others =>
    rw [read?, read?, first.isBlank_eq]
    split
    · exact .none
    · have taken := (InStep.cons first others).cons_takeWhile agree
      have left := others.dropWhile agree
      dsimp only
      generalize ls.dropWhile continues = behind at taken left ⊢
      generalize ks.dropWhile continues = behind' at left ⊢
      cases left with
      | nil => exact .some ⟨⟨by simpa using taken, .none⟩, .nil⟩
      | cons next rest =>
        dsimp only
        rw [isUnderline_eq next]
        split
        · exact .some ⟨⟨by simpa using taken, .some next⟩, rest⟩
        · exact .some ⟨⟨by simpa using taken, .none⟩, .cons next rest⟩

theorem Paragraph.element_alike {p q : Paragraph} (h : Paragraph.Alike w last p q) :
    TierLint.Alike w last [p.element] [q.element] := by
  obtain ⟨lines, underline⟩ := h
  have content : TierLint.Alike w (last && p.underline?.isNone) (p.lines.flatMap lineElements)
      (q.lines.flatMap lineElements) :=
    .flatMap (fun _ l k h => by
      rw [lineElements, lineElements, h.content]
      exact h.elementsWith _) lines
  rw [element, element]
  generalize p.underline? = u? at content underline ⊢
  generalize q.underline? = v? at underline ⊢
  cases underline with
  | none => exact .singleton (by simpa using content)
  | some underline =>
    dsimp only
    rw [underline.content]
    exact .singleton (.node (by simpa using content) (.singleton (underline.elementsWith _)))

/-! ## Containers -/

theorem Quote.strip_alike {l k : Line} (h : Line.Alike w last l k) :
    Line.Alike w last (Quote.strip l) (Quote.strip k) := by
  rw [strip, strip, markerLength, markerLength, h.indent_eq, h.content]
  exact h.advance _

theorem Quote.read?_alike : ReadsAlike w (InStep <| Line.Alike w) Quote.read? := by
  intro last ls ks h
  have agree : ∀ (b : Bool) (x y : Line), Line.Alike w b x y → isQuoted x = isQuoted y :=
    fun _ _ _ h => by rw [isQuoted, isQuoted, h.indent_eq, h.content]
  cases h with
  | nil => exact .none
  | cons first others =>
    rw [read?, read?, agree _ _ _ first]
    split
    · have taken := (InStep.cons first others).cons_takeWhile agree
      exact .some ⟨taken.map fun _ _ _ h => strip_alike h, others.dropWhile agree⟩
    · exact .none

/-- Items with one marker, line by line alike. -/
structure ListItem.Alike (w : Slack) (last : Bool) (i j : ListItem) : Prop where
  marker : i.marker = j.marker
  gap : InStep (Line.Alike w) false i.gap j.gap
  lines : InStep (Line.Alike w) last (i.first :: i.rest) (j.first :: j.rest)

namespace ListItem

theorem Alike.weaken {i j : ListItem} (h : ListItem.Alike w false i j) :
    ListItem.Alike w last i j :=
  ⟨h.marker, h.gap, h.lines.weaken fun _ _ h => h.weaken⟩

theorem continues_eq {l k : Line} (h : Line.Alike w last l k) (offset : Nat) (afterBlank : Bool) :
    continues offset afterBlank l = continues offset afterBlank k := by
  rw [continues, continues, h.indent_eq, h.content, h.interruptsParagraph_eq]

theorem reach_eq {m : ListMarker} {l k : Line} {b : Bool} {ls ks : List Line}
    (first : Line.Alike w b l k) (h : InStep (Line.Alike w) last ls ks) :
    reach m l ls = reach m k ks := by
  rw [reach, reach, first.content]
  exact Line.reach_eq (fun _ _ _ h a => continues_eq h m.contentOffset a) h _

/-- Items are found in step. The recursion follows the reader from item to item. -/
theorem sequence_alike {m : ListMarker} {first first' : Line} {gap gap' ls ls' : List Line}
    (hgap : InStep (Line.Alike w) false gap gap')
    (h : InStep (Line.Alike w) last (first :: ls) (first' :: ls')) :
    InStep (ListItem.Alike w) (last && (sequence gap m first ls).2.isEmpty)
        (sequence gap m first ls).1 (sequence gap' m first' ls').1 ∧
      InStep (Line.Alike w) last (sequence gap m first ls).2 (sequence gap' m first' ls').2 := by
  have agree : ∀ (b : Bool) (x y : Line), Line.Alike w b x y → x.isBlank = y.isBlank :=
    fun _ _ _ h => h.isBlank_eq
  obtain ⟨firsts, others⟩ : Line.Alike w (last && ls.isEmpty) first first' ∧
      InStep (Line.Alike w) last ls ls' := by
    cases h with
    | cons firsts others => exact ⟨firsts, others⟩
  have reached : reach m first ls = reach m first' ls' := reach_eq firsts others
  have item : ListItem.Alike w (last && (ls.drop (reach m first ls)).isEmpty)
      ⟨gap, m, first, ls.take (reach m first ls)⟩
      ⟨gap', m, first', ls'.take (reach m first' ls')⟩ :=
    ⟨rfl, hgap, reached ▸ h.cons_take _⟩
  have behind : InStep (Line.Alike w) last (ls.drop (reach m first ls))
      (ls'.drop (reach m first' ls')) := reached ▸ others.drop _
  have blanks := behind.takeWhile agree
  have nexts := behind.dropWhile agree
  by_cases goesOn : ∃ next rest m',
      (ls.drop (reach m first ls)).dropWhile (·.isBlank) = next :: rest
      ∧ ListMarker.read? next.content = some m' ∧ m'.kind = m.kind
  · obtain ⟨next, rest, m', split, hm', kind⟩ := goesOn
    obtain ⟨next', rest', split', following⟩ : ∃ next' rest',
        (ls'.drop (reach m first' ls')).dropWhile (·.isBlank) = next' :: rest' ∧
          InStep (Line.Alike w) last (next :: rest) (next' :: rest') := by
      rw [split] at nexts
      generalize (ls'.drop (reach m first' ls')).dropWhile (·.isBlank) = nexts' at nexts ⊢
      cases nexts with
      | cons hnext hrest => exact ⟨_, _, rfl, .cons hnext hrest⟩
    have content : next.content = next'.content := by
      cases following with
      | cons hnext _ => exact hnext.content
    have shorter := (suffix_of_dropWhile_drop split).length_le
    have later := sequence_alike (m := m') (by simpa [split] using blanks) following
    rw [sequence_eq_cons gap split hm' kind,
      sequence_eq_cons gap' split' (content ▸ hm') kind]
    refine ⟨.cons ?_ later.1, later.2⟩
    -- another item follows, so this one is not the last
    have notLast : (ls.drop (reach m first ls)).isEmpty = false := by
      cases left : ls.drop (reach m first ls) with
      | nil => simp [left] at split
      | cons => rfl
    rw [notLast, Bool.and_false] at item
    exact item.weaken
  · have ends : ∀ {l : Line} {rest : List Line},
        (ls.drop (reach m first ls)).dropWhile (·.isBlank) = l :: rest →
          ∀ m', ListMarker.read? l.content = some m' → m'.kind ≠ m.kind :=
      fun split m' hm' kind => goesOn ⟨_, _, m', split, hm', kind⟩
    rw [sequence_eq_singleton gap ls fun _ _ => ends, sequence_eq_singleton gap' ls']
    · exact ⟨.singleton item, behind⟩
    · intro next' rest' split' m' hm'
      rw [split'] at nexts
      generalize (ls.drop (reach m first ls)).dropWhile (·.isBlank) = nexts' at nexts ends
      cases nexts with
      | cons hnext _ => exact ends rfl m' (hnext.content ▸ hm')
termination_by ls.length
decreasing_by
  rw [List.length_cons] at shorter
  omega

theorem read?_alike : ReadsAlike w (InStep <| ListItem.Alike w) read? := by
  intro last ls ks h
  cases h with
  | nil => exact .none
  | cons first others =>
    rw [read?, read?, first.content]
    cases ListMarker.read? _ with
    | none => exact .none
    | some m => exact .some (sequence_alike .nil (.cons first others))

theorem strip_alike {l k : Line} (h : Line.Alike w last l k) (offset : Nat) :
    Line.Alike w last (strip offset l) (strip offset k) := by
  rw [strip, strip, h.indent_eq]
  exact h.advance _

/-- The lines inside items that are alike are alike. -/
theorem inner_alike {i j : ListItem} (h : ListItem.Alike w last i j) :
    InStep (Line.Alike w) last i.inner j.inner := by
  have ⟨marker, _, lines⟩ := h
  rw [inner, inner, marker]
  cases lines with
  | cons first others =>
    refine .cons ?_ (others.map fun _ _ _ h => strip_alike h _)
    simpa using first.consume _

theorem elements_alike {i j : ListItem} (h : ListItem.Alike w last i j) {es fs : List Element}
    (inside : TierLint.Alike w last es fs) :
    TierLint.Alike w last (i.elements es) (j.elements fs) := by
  have ⟨marker, gap, lines⟩ := h
  have gaps : TierLint.Alike w false (i.gap.map Line.blankElement)
      (j.gap.map Line.blankElement) := by
    rw [List.map_eq_flatMap, List.map_eq_flatMap]
    exact .flatMap (fun _ _ _ h => h.blankElement) gap
  cases lines with
  | cons first _ =>
    rw [elements, elements, marker, first.content]
    refine gaps.append_inner (.singleton (.append_inner ?_ inside))
    exact (((first.pendingElements false).append_inner (.refl w false _)).append_inner
      (.refl w false _)).append_inner (.refl w false _)

/-- Items in step, each around elements that are alike. -/
theorem zipWith_alike {is js : List ListItem} (h : InStep (ListItem.Alike w) last is js)
    {inner inner' : List (List Element)} (length : is.length = inner.length)
    (inside : InStep (TierLint.Alike w) last inner inner') :
    InStep (TierLint.Alike w) last (List.zipWith elements is inner)
      (List.zipWith elements js inner') := by
  induction h generalizing inner inner' with
  | nil => exact .nil
  | @cons i j is js item _ ih =>
    cases inside with
    | nil => simp at length
    | @cons es fs inner inner' first others =>
      have length : is.length = inner.length := by simpa using length
      refine .cons ?_ (ih length others)
      -- one item is the last exactly if one sequence inside is
      have ended : (List.zipWith elements is inner).isEmpty = is.isEmpty ∧
          inner.isEmpty = is.isEmpty := by
        cases is <;> cases inner <;> simp_all
      rw [ended.2] at first
      rw [ended.1]
      exact elements_alike item first

end ListItem

/-! ## All blocks -/

namespace Block

/-- Blocks of one kind on lines that are alike. -/
inductive Alike (w : Slack) (last : Bool) : Block → Block → Prop
  | blank {l k : Line} : Line.Alike w last l k → Alike w last (blank l) (blank k)
  | fencedCode {b c : FencedCode} :
      FencedCode.Alike w last b c → Alike w last (fencedCode b) (fencedCode c)
  | atxHeading {h k : AtxHeading} :
      AtxHeading.Alike w last h k → Alike w last (atxHeading h) (atxHeading k)
  | thematicBreak {l k : Line} :
      Line.Alike w last l k → Alike w last (thematicBreak l) (thematicBreak k)
  | quote {ls ks : List Line} :
      InStep (Line.Alike w) last ls ks → Alike w last (quote ls) (quote ks)
  | list {is js : List ListItem} :
      InStep (ListItem.Alike w) last is js → Alike w last (list is) (list js)
  | html {ls ks : List Line} :
      InStep (Line.Alike w) last ls ks → Alike w last (html ls) (html ks)
  | table {t u : Table} : Table.Alike w last t u → Alike w last (table t) (table u)
  | indentedCode {ls ks : List Line} :
      InStep (Line.Alike w) last ls ks → Alike w last (indentedCode ls) (indentedCode ks)
  | paragraph {p q : Paragraph} :
      Paragraph.Alike w last p q → Alike w last (paragraph p) (paragraph q)
  | literal {l k : Line} : Line.Alike w last l k → Alike w last (literal l) (literal k)

/-- Every recogniser finds the same kind of block. -/
theorem alike_of_mem {r : List Line → Option (Block × List Line)} (mem : r ∈ recognisers) :
    ReadsAlike w (Alike w) r := by
  simp only [recognisers, List.mem_cons, List.not_mem_nil, or_false] at mem
  rcases mem with rfl | rfl | rfl | rfl | rfl | rfl | rfl | rfl | rfl | rfl
  · exact readBlank?_alike.map fun _ _ _ => .blank
  · exact FencedCode.read?_alike.map fun _ _ _ => .fencedCode
  · exact AtxHeading.read?_alike.map fun _ _ _ => .atxHeading
  · exact ThematicBreak.read?_alike.map fun _ _ _ => .thematicBreak
  · exact Quote.read?_alike.map fun _ _ _ => .quote
  · exact ListItem.read?_alike.map fun _ _ _ => .list
  · exact Html.read?_alike.map fun _ _ _ => .html
  · exact Table.read?_alike.map fun _ _ _ => .table
  · exact IndentedCode.read?_alike.map fun _ _ _ => .indentedCode
  · exact Paragraph.read?_alike.map fun _ _ _ => .paragraph

theorem recognise?_alike : ReadsAlike w (Alike w) recognise? := by
  intro last ls ks h
  have all : ∀ r ∈ recognisers, ReadsAlike w (Alike w) r := fun r => alike_of_mem
  rw [recognise?, recognise?]
  generalize recognisers = readers at all
  induction readers with
  | nil => exact .none
  | cons r readers ih =>
    have found := all r List.mem_cons_self h
    rw [List.findSome?_cons, List.findSome?_cons]
    generalize r ls = x at found ⊢
    generalize r ks = y at found ⊢
    cases found with
    | none => exact ih fun r hr => all r (List.mem_cons_of_mem _ hr)
    | some found => exact .some found

/-- The next block is of the same kind, on lines that are alike, and leaves lines in step. -/
theorem next_alike {l k : Line} {ls ks : List Line}
    (h : InStep (Line.Alike w) last (l :: ls) (k :: ks)) :
    Alike w (last && (next l ls).2.isEmpty) (next l ls).1 (next k ks).1 ∧
      InStep (Line.Alike w) last (next l ls).2 (next k ks).2 := by
  have found := recognise?_alike h
  rw [next, next]
  generalize recognise? (l :: ls) = x at found ⊢
  generalize recognise? (k :: ks) = y at found ⊢
  cases found with
  | none =>
    cases h with
    | cons first others => exact ⟨.literal first, others⟩
  | some found => exact found

/-- The lines inside containers that are alike are alike. -/
theorem inside_alike {b c : Block} (h : Alike w last b c) :
    InStep (fun f => InStep (Line.Alike w) f) last b.inside c.inside := by
  cases h with
  | quote h => exact .singleton h
  | list h => exact h.map fun _ _ _ h => ListItem.inner_alike h
  | _ => exact .nil

/-- Blocks that are alike around sequences that are alike are written alike, and fail alike. -/
theorem element_alike {b c : Block} (h : Alike w last b c) {inner inner' : List (List Element)}
    (length : b.inside.length = inner.length)
    (inside : InStep (TierLint.Alike w) last inner inner') {e : Element}
    (he : b.element inner = .ok e) :
    ∃ f, c.element inner' = .ok f ∧ TierLint.Alike w last [e] [f] := by
  cases h with
  | atxHeading h => exact AtxHeading.element_alike h he
  | blank h =>
    cases he
    exact ⟨_, rfl, h.blankElement⟩
  | fencedCode h =>
    cases he
    exact ⟨_, rfl, FencedCode.element_alike h⟩
  | thematicBreak h =>
    cases he
    exact ⟨_, rfl, ThematicBreak.element_alike h⟩
  | quote h =>
    cases he
    exact ⟨_, rfl, .singleton (.flatten inside)⟩
  | list h =>
    cases he
    rw [Block.inside, List.length_map] at length
    exact ⟨_, rfl, .singleton (.flatten (ListItem.zipWith_alike h length inside))⟩
  | html h =>
    cases he
    exact ⟨_, rfl, Html.element_alike h⟩
  | table h =>
    cases he
    exact ⟨_, rfl, Table.element_alike h⟩
  | indentedCode h =>
    cases he
    exact ⟨_, rfl, IndentedCode.element_alike h⟩
  | paragraph h =>
    cases he
    exact ⟨_, rfl, Paragraph.element_alike h⟩
  | literal h =>
    cases he
    exact ⟨_, rfl, .singleton (h.elements .text)⟩

theorem isEmpty_of_elementsOf {ls : List Line} {es : List Element} (h : elementsOf ls = .ok es) :
    es.isEmpty = ls.isEmpty := by
  cases ls with
  | nil =>
    rw [elementsOf_nil] at h
    cases h
    rfl
  | cons l ls =>
    obtain ⟨inner, first, others, -, -, -, rfl⟩ := elementsOf_cons_eq_ok h
    rfl

/-- Lines in step with the lines `ls` have elements like `es`. -/
structure Simulated (w : Slack) (ls : List Line) (es : List Element) : Prop where
  isEmpty_eq : es.isEmpty = ls.isEmpty
  exists_alike : ∀ {last : Bool} {ks : List Line}, InStep (Line.Alike w) last ls ks →
    ∃ fs, elementsOf ks = .ok fs ∧ TierLint.Alike w last es fs

theorem Simulated.inside {lss kss : List (List Line)} {ess : List (List Element)}
    (h : List.Forall₂ (Simulated w) lss ess)
    (lines : InStep (fun f => InStep (Line.Alike w) f) last lss kss) :
    ∃ fss, kss.mapM elementsOf = .ok fss ∧ InStep (TierLint.Alike w) last ess fss := by
  induction lines generalizing ess with
  | nil =>
    cases h
    exact ⟨[], rfl, .nil⟩
  | @cons ls ks lss kss first _ ih =>
    cases h with
    | @cons _ es _ ess hfirst hothers =>
      obtain ⟨fs, hfs, alike⟩ := hfirst.exists_alike first
      obtain ⟨fss, hfss, others⟩ := ih hothers
      have ended : lss.isEmpty = ess.isEmpty := by cases hothers <;> rfl
      refine ⟨fs :: fss, ?_, .cons (ended ▸ alike) others⟩
      rw [List.mapM_cons, hfs, hfss]
      rfl

/-- **Simulation.** Lines in step have elements that are alike, if they have any. The induction is
over the blocks of the first lines and the lines inside them. -/
theorem elementsOf_alike {ls : List Line} {es : List Element} (h : elementsOf ls = .ok es) :
    Simulated w ls es := by
  refine elementsOf_induction (P := Simulated w) ⟨rfl, fun h => ?_⟩ ?_ h
  · cases h
    exact ⟨[], elementsOf_nil, .nil⟩
  · intro l ls b rest inner first others hnext hinner hfirst hothers
    refine ⟨rfl, fun {last} {lines} h => ?_⟩
    cases h with
    | @cons _ k _ ks firsts behind =>
      obtain ⟨block, left⟩ := next_alike (.cons firsts behind)
      rw [hnext] at block left
      obtain ⟨inner', hinner', inside⟩ := Simulated.inside hinner (inside_alike block)
      obtain ⟨first', hfirst', alike⟩ := element_alike block hinner.length_eq inside hfirst
      obtain ⟨others', hothers', alikes⟩ := hothers.exists_alike left
      refine ⟨first' :: others', ?_, .cons ?_ alikes⟩
      · rw [elementsOf_cons, hinner']
        show (element inner' (next k ks).1 >>= fun _ => _) = _
        rw [hfirst', hothers']
        rfl
      · -- the element ends the document only if no lines are left
        rw [hothers.isEmpty_eq, isEmpty_of_elementsOf hothers', ← left.isEmpty_eq, Bool.and_assoc,
          Bool.and_self]
        exact alike

end Block

end TierLint
