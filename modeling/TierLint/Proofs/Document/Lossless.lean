import TierLint.Proofs.Block.Lossless

/-!
# A parsed document is its text

The lines of a text are that text cut behind its line ends (`textOf_ofText`, `cut_ofText`). Tokens
that cover such lines make up the text, and the line ends among them are its line breaks, in order
and at their offsets (`Covers.lineBreaks`). The tokens of a parsed document cover the lines of its
text, so nothing is lost, added or moved (`Document.lossless_of_parse`).
-/

set_option autoImplicit false

namespace TierLint

open Element

/-! ## Lines of a text -/

/-- The lines are those of a text: nothing of them is pending, line feeds and carriage returns in
front of them belong to line ends, and only the last line may end without one. -/
def Line.Cut : List Line → Prop
  | [] => True
  | l :: ls =>
    l.pending = [] ∧ '\n' ∉ l.content ∧ (l.ending = .lf → l.content.getLast? ≠ some '\r') ∧
      (l.ending = .none → ls = []) ∧ Cut ls

namespace Line

/-- A character in front of a text begins a line of its own, or joins the first line or its end. -/
theorem cut_consChar {c : Char} {lines : List Line} (h : Cut lines) : Cut (consChar c lines) := by
  unfold consChar
  split
  · -- a line feed, which ends an empty line
    exact ⟨rfl, by simp, by simp, by simp, h⟩
  · rename_i notLf
    have notLf : c ≠ '\n' := by simpa using notLf
    cases lines with
    | nil => exact ⟨rfl, by simpa using notLf.symm, by simp, by simp, trivial⟩
    | cons l ls =>
      obtain ⟨pending, lf, cr, last, rest⟩ := h
      simp only
      split
      · -- a carriage return in front of a line feed
        rename_i isCr
        obtain ⟨⟨-, -⟩, ending⟩ : (c = '\r' ∧ l.content = []) ∧ l.ending = .lf := by
          simpa using isCr
        exact ⟨rfl, by simp, by simp, by simp, rest⟩
      · -- any other character joins the content of the first line
        rename_i notCr
        refine ⟨pending, by simpa using ⟨notLf.symm, lf⟩, fun ending => ?_, last, rest⟩
        cases content : l.content with
        | nil => simpa [content, show l.ending = .lf from ending] using notCr
        | cons d t =>
          have := cr ending
          rw [content] at this
          simpa [List.getLast?_cons_cons] using this

/-- The lines of a text end at its line ends. -/
theorem cut_ofText (t : Text) : Cut (ofText t) := by
  induction t with
  | nil => trivial
  | cons c t ih => exact cut_consChar ih

/-- Nothing of the lines of a text is pending. -/
theorem pending_of_cut {ls : List Line} (h : Cut ls) : ∀ l ∈ ls, l.pending = [] := by
  induction ls with
  | nil =>
    intro l hl
    cases hl
  | cons l ls ih =>
    obtain ⟨pending, -, -, -, rest⟩ := h
    exact List.forall_mem_cons.2 ⟨pending, ih rest⟩

/-- Their contents hold no line feeds. -/
theorem lf_not_mem_of_cut {ls : List Line} (h : Cut ls) : ∀ l ∈ ls, '\n' ∉ l.content := by
  induction ls with
  | nil =>
    intro l hl
    cases hl
  | cons l ls ih =>
    obtain ⟨-, lf, -, -, rest⟩ := h
    exact List.forall_mem_cons.2 ⟨lf, ih rest⟩

/-- In all these cases the text grows by the character. -/
theorem textOf_consChar {c : Char} {lines : List Line} (h : Cut lines) :
    textOf (consChar c lines) = c :: textOf lines := by
  unfold consChar
  split
  · rename_i lf
    obtain rfl : c = '\n' := by simpa using lf
    simp [textOf, text, LineEnding.text]
  · cases lines with
    | nil => simp [textOf, text, LineEnding.text]
    | cons l ls =>
      have pending := h.1
      simp only
      split
      · rename_i isCr
        obtain ⟨⟨rfl, content⟩, ending⟩ : (c = '\r' ∧ l.content = []) ∧ l.ending = .lf := by
          simpa using isCr
        simp [textOf, text, pending, content, ending, LineEnding.text]
      · simp [textOf, text, pending]

/-- The lines of a text make up the text. -/
theorem textOf_ofText (t : Text) : textOf (ofText t) = t := by
  induction t with
  | nil => rfl
  | cons c t ih =>
    rw [ofText, List.foldr_cons, ← ofText, textOf_consChar (cut_ofText t), ih]

end Line

/-! ## Tokens of lines -/

theorem LineEnding.flatMap_tokens (e : LineEnding) : e.tokens.flatMap (·.2) = e.text := by
  cases e <;> rfl

namespace Covers

/-- Tokens that cover lines make up their text. -/
theorem flatMap_text {ls : List Line} {ts : List (Kind × Text)} (h : Covers ls ts) :
    ts.flatMap (·.2) = Line.textOf ls := by
  induction h with
  | nil => rfl
  | cons first _ ih =>
    rw [List.flatMap_append, List.flatMap_append, first.text, LineEnding.flatMap_tokens, ih]
    rfl

/-- In the lines of a text, the only tokens with a line feed are line ends. -/
theorem lf_not_mem {ls : List Line} {ts : List (Kind × Text)} (h : Covers ls ts)
    (cut : Line.Cut ls) : ∀ x ∈ ts, x.1 ≠ .newline → '\n' ∉ x.2 := by
  induction h with
  | nil => simp
  | @cons l ls ts us first _ ih =>
    obtain ⟨pending, lf, -, -, rest⟩ := cut
    have body : '\n' ∉ l.body := by rwa [Line.body, pending, List.nil_append]
    intro x hx hk
    rw [List.append_assoc] at hx
    rcases List.mem_append.1 hx with hx | hx
    · -- a token of the first line
      exact first.lf_not_mem body x hx
    · rcases List.mem_append.1 hx with hx | hx
      · -- the end of the first line
        rw [LineEnding.tokens] at hx
        split at hx
        · simp at hx
        · exact absurd (by simpa using congrArg Prod.fst (List.mem_singleton.1 hx)) hk
      · exact ih rest x hx hk

/-- The line ends among some tokens, with the offsets at which they stand. -/
def lineEnds (start : Nat) (ts : List (Kind × Text)) : List (Nat × Text) :=
  ((place start ts).filter (·.2.1 == .newline)).map fun x => (x.1, x.2.2)

theorem lineEnds_append (start : Nat) (ts us : List (Kind × Text)) :
    lineEnds start (ts ++ us) =
      lineEnds start ts ++ lineEnds (start + Text.byteLength (ts.flatMap (·.2))) us := by
  rw [lineEnds, place_append, List.filter_append, List.map_append, lineEnds, lineEnds]

/-- Tokens inside a line are no line ends. -/
theorem lineEnds_of_spells {ts : List (Kind × Text)} {t : Text} (h : Spells ts t) (start : Nat) :
    lineEnds start ts = [] := by
  have inside := h.inside
  clear h
  induction ts generalizing start with
  | nil => rfl
  | cons t ts ih =>
    rw [← List.singleton_append, lineEnds_append, ih _ fun x hx => inside x (by simp [hx])]
    simp [lineEnds, place, inside t (by simp)]

/-- A line end is one line break of the text that it begins. -/
theorem lineBreaks_ending {e : LineEnding} {rest : Text} (last : e = .none → rest = [])
    (start : Nat) :
    Text.lineBreaks start (e.text ++ rest) =
      lineEnds start e.tokens ++ Text.lineBreaks (start + Text.byteLength e.text) rest := by
  cases e with
  | none =>
    rw [last rfl]
    rfl
  | lf => simp [LineEnding.text, LineEnding.tokens, lineEnds, place, Text.lineBreaks]; rfl
  | crlf => simp [LineEnding.text, LineEnding.tokens, lineEnds, place, Text.lineBreaks]; rfl

/-- The line ends among the tokens of a text's lines are the line breaks of the text. -/
theorem lineEnds_eq {ls : List Line} {ts : List (Kind × Text)} (h : Covers ls ts)
    (cut : Line.Cut ls) (start : Nat) :
    lineEnds start ts = Text.lineBreaks start (Line.textOf ls) := by
  induction h generalizing start with
  | nil => rfl
  | @cons l ls ts us first others ih =>
    obtain ⟨pending, lf, cr, last, rest⟩ := cut
    have body : l.body = l.content := by rw [Line.body, pending, List.nil_append]
    have text : Line.textOf (l :: ls) = l.content ++ (l.ending.text ++ Line.textOf ls) := by
      simp [Line.textOf, Line.text, pending]
    -- the content of the line ends neither within a line break nor with one
    have whole : l.content.getLast? = some '\r' →
        (l.ending.text ++ Line.textOf ls).head? ≠ some '\n' := by
      intro isCr
      cases ending : l.ending with
      | none => simp [LineEnding.text, last ending, Line.textOf]
      | lf => exact absurd isCr (cr ending)
      | crlf => simp [LineEnding.text]
    rw [text, Text.lineBreaks_append lf whole,
      lineBreaks_ending (fun ending => by rw [last ending]; rfl), ← ih rest, List.append_assoc,
      lineEnds_append, lineEnds_append, lineEnds_of_spells first, first.text, body,
      LineEnding.flatMap_tokens]
    rfl

end Covers

/-! ## Documents -/

/-- A tree loses nothing of a text: its tokens, in document order, make up the text without gap or
overlap, and each is what stands between its offsets. The line breaks of the text, a carriage
return in front of a line feed included, are the line ends of the tree; no other token contains a
line feed. -/
structure Lossless (t : Text) (tree : Element) : Prop where
  text : tree.tokenVisits.flatMap (·.element.text) = t
  tiles : Tiles 0 t tree.tokenVisits
  slices : ∀ v ∈ tree.tokenVisits, t.slice? v.start v.stop = some v.element.text
  lineEnds : (tree.tokenVisits.filter (·.element.kind == .newline)).map
    (fun v => (v.start, v.element.text)) = Text.lineBreaks 0 t
  lineEndText : ∀ v ∈ tree.tokenVisits, v.element.kind = .newline →
    v.element.text = ['\n'] ∨ v.element.text = ['\r', '\n']
  lineEndCount : (tree.tokenVisits.filter (·.element.kind == .newline)).length = t.count '\n'
  inside : ∀ v ∈ tree.tokenVisits, v.element.kind ≠ .newline → '\n' ∉ v.element.text

namespace Document

/-- The tree of a text stands for its lines. -/
theorem covers_of_parse {t : Text} {tree : Element} (h : parse t = .ok tree) :
    Covers (Line.ofText t) tree.tokens := by
  rw [parse] at h
  cases hes : elements (Line.ofText t) with
  | error e =>
    rw [hes] at h
    cases h
  | ok es =>
    rw [hes] at h
    cases h
    simpa using covers_elements hes

/-- **Losslessness.** The tree of a parsed text loses nothing of it. -/
theorem lossless_of_parse {t : Text} {tree : Element} (h : parse t = .ok tree) :
    Lossless t tree := by
  have covers := covers_of_parse h
  have cut := Line.cut_ofText t
  have whole : tree.tokens.flatMap (·.2) = t := by
    rw [covers.flatMap_text, Line.textOf_ofText]
  have tiles : Tiles 0 t tree.tokenVisits := by
    have tiles := tree.tiles
    rwa [text_eq_flatMap, whole] at tiles
  have ends : (tree.tokenVisits.filter (·.element.kind == .newline)).map
      (fun v => (v.start, v.element.text)) = Text.lineBreaks 0 t := by
    have placed := covers.lineEnds_eq cut 0
    rw [Covers.lineEnds, ← map_tokenVisits, List.filter_map, List.map_map,
      Line.textOf_ofText] at placed
    exact placed
  have mem : ∀ v ∈ tree.tokenVisits, (v.element.kind, v.element.text) ∈ tree.tokens := by
    intro v hv
    rw [← map_kind_text_tokenVisits]
    exact List.mem_map_of_mem hv
  -- the offsets of the line ends give their texts and their number
  constructor
  · rw [← whole, ← map_kind_text_tokenVisits, List.flatMap_map]
  · exact tiles
  · exact fun v hv => tiles.slice? hv
  · exact ends
  · intro v hv hk
    have isBreak : (v.start, v.element.text) ∈ Text.lineBreaks 0 t := by
      rw [← ends]
      exact List.mem_map_of_mem (List.mem_filter.2 ⟨hv, by simp [hk]⟩)
    exact Text.eq_of_mem_lineBreaks isBreak
  · have count := congrArg List.length ends
    rwa [List.length_map, Text.length_lineBreaks] at count
  · exact fun v hv hk => covers.lf_not_mem cut _ (mem v hv) hk

/-- A list inside a quote, with a lazy line and both kinds of line ends. -/
theorem lossless_of_parse_quoted_item :
    Lossless "> - a\r\n> b\n".toList
      (.node .root [.node .document [.node .blockQuote [.node .list [.node .listItem
        [.token .blockQuoteMarker ['>'], .token .whitespace [' '], .token .listMarker ['-'],
         .token .whitespace [' '],
         .node .paragraph
          [.token .text ['a'], .token .newline ['\r', '\n'],
           .token .blockQuoteMarker ['>'], .token .whitespace [' '], .token .text ['b'],
           .token .newline ['\n']]]]]]]) :=
  lossless_of_parse (by decide +kernel)

end Document

end TierLint
