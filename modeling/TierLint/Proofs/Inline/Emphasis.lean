import TierLint.Proofs.Inline.Readers
import TierLint.Proofs.Inline.Spelling
import TierLint.Proofs.Syntax.Every

/-!
# Well-formed emphasis

Emphasis is recognised by what stands around its delimiters: no white space inside of them, and
outside of underscores no letter or digit (`Emphasis.WellFormed`). The reader sees the character in
front of the opening delimiters and the text behind the closing ones
(`Emphasis.wellFormed_of_read?`).

The running text inside emphasis or a link is read by itself, without what stands around it. That is
a delimiter or a bracket, which is neither a letter nor a digit, so nothing gets lost: all emphasis,
at any depth, is well formed where it stands in the whole text
(`Inline.wellFormed_of_mem_nodesOf`).
-/

set_option autoImplicit false

namespace TierLint

open Element List Text Unicode

variable {before : Option Char} {t rest content after front behind : Text}

namespace Text

variable {p : Char → Bool} {v : Text} {c : Char}

theorem endsBy_append (u : Text) (h : v.getLast? = some c) : endsBy p (u ++ v) = p c := by
  rw [endsBy, getLast?_append, h]
  rfl

/-- Of a text in front of others, its last character decides. -/
theorem endsBy_append_append {w : Text} (u : Text) (last : v.getLast? = some c)
    (h : endsBy p (c :: w) = true) : endsBy p (u ++ (v ++ w)) = true := by
  rcases w.eq_nil_or_concat' with rfl | ⟨front, x, rfl⟩
  · rw [append_nil, endsBy_append u last]
    exact h
  · have final : (front ++ [x]).getLast? = some x := getLast?_concat
    rw [← append_assoc, endsBy_append _ final]
    rwa [← singleton_append, endsBy_append _ final] at h

end Text

namespace Emphasis

/-- The emphasis is well formed between the texts in front of it and behind it. -/
structure WellFormed (e : Emphasis) (front behind : Text) : Prop where
  delimiter : e.delimiter = '*' ∨ e.delimiter = '_'
  /-- The content is not empty and does not begin with white space. -/
  begins : startsBy (!isWhiteSpace ·) e.content = true
  /-- It does not end with white space either. -/
  ends : endsBy (!isWhiteSpace ·) e.content = true
  /-- No letter or digit touches underscores from outside. -/
  apart : e.delimiter = '_' →
    endsBy isAlphanumeric front = false ∧ startsBy isAlphanumeric behind = false

variable {d : Char} {strong : Bool} {e : Emphasis}

/-! ## The closing delimiters -/

/-- The content ends with something other than white space. The character in front of what is left
to search stands for the content so far. -/
theorem endsBy_of_closing? (hd : isWhiteSpace d = false)
    (h : closing? d strong before t = some (content, after)) :
    endsBy (!isWhiteSpace ·) (before.toList ++ content) = true := by
  fun_induction closing? d strong before t generalizing content after with
  | case1 => cases h
  | case2 => cases h
  | case3 _ c rest ih =>
    obtain ⟨inner, hi, rfl⟩ := prependTo_eq_some.1 h
    exact endsBy_append_append _ rfl (ih hi)
  | case4 _ rest span behind found ih =>
    obtain ⟨inner, hi, rfl⟩ := prependTo_eq_some.1 h
    exact endsBy_append_append _ (CodeSpan.getLast?_source found) (ih hi)
  | case5 _ rest _ ih =>
    obtain ⟨inner, hi, rfl⟩ := prependTo_eq_some.1 h
    exact endsBy_append_append _ (getLast?_run ..) (ih hi)
  | case6 before rest run behind =>
    rename_i closes _ _ _
    cases h
    simp only [Emphasis.closes, Bool.and_eq_true] at closes
    cases more : run - width strong with
    | zero =>
      -- the content ends in front of the run
      rw [replicate_zero, append_nil]
      cases before with
      | none => cases closes.1.1
      | some c => exact closes.1.1
    | succ n =>
      -- the run begins with delimiters that belong to the content
      rw [Nat.add_comm, endsBy_append _ (getLast?_run n d), hd]
      rfl
  | case7 before rest run behind =>
    rename_i ih
    obtain ⟨inner, hi, rfl⟩ := prependTo_eq_some.1 h
    exact endsBy_append_append _ (getLast?_run ..) (ih hi)
  | case8 _ c rest =>
    rename_i ih
    obtain ⟨inner, hi, rfl⟩ := prependTo_eq_some.1 h
    exact endsBy_append_append _ rfl (ih hi)

/-- No letter or digit follows the underscores that close. -/
theorem startsBy_of_closing? (h : closing? '_' strong before t = some (content, after)) :
    startsBy isAlphanumeric after = false := by
  generalize hd : '_' = d at h
  fun_induction closing? d strong before t generalizing content after with
  | case1 => cases h
  | case2 => cases h
  | case6 before rest run behind =>
    rename_i closes _ _ _
    cases h
    simp only [Emphasis.closes, ← hd, Bool.and_eq_true] at closes
    simpa using closes.1.2
  | _ =>
    rename_i ih
    obtain ⟨inner, hi, -⟩ := prependTo_eq_some.1 h
    exact ih hi

/-! ## Reading -/

/-- What is read as emphasis is well formed in any text in which it stands behind the same kind of
character, and in which no letter or digit follows the text that was read. -/
theorem wellFormed_of_read? (h : read? before t = some (e, rest))
    (hfront : endsBy isAlphanumeric front = before.any isAlphanumeric)
    (hbehind : startsBy isAlphanumeric behind = false) : e.WellFormed front (rest ++ behind) := by
  cases t with
  | nil => cases h
  | cons d tail =>
    simp only [read?] at h
    split at h
    · rename_i opens
      obtain ⟨⟨content, after⟩, closed, eq⟩ := Option.map_eq_some_iff.1 h
      cases eq
      simp only [mayOpen, Bool.and_eq_true, Bool.or_eq_true, beq_iff_eq] at opens
      obtain ⟨⟨⟨delimiter, -⟩, apart⟩, begins⟩ := opens
      have ink : isWhiteSpace d = false := by
        rcases delimiter with rfl | rfl <;> decide
      have ends : endsBy (!isWhiteSpace ·) content = true := endsBy_of_closing? ink closed
      refine ⟨delimiter, ?_, ends, ?_⟩
      · -- the content is not empty, so it begins as the text behind the opening delimiters does
        cases content with
        | nil => cases ends
        | cons c content =>
          rw [eq_of_closing? closed] at begins
          exact begins
      · rintro rfl
        refine ⟨?_, startsBy_append (startsBy_of_closing? closed) hbehind⟩
        rw [hfront]
        simpa using apart
    · cases h

theorem startsBy_marker_append {p : Char → Bool} (e : Emphasis) (v : Text) :
    startsBy p (e.marker ++ v) = p e.delimiter := by
  obtain ⟨d, strong, content⟩ := e
  cases strong <;> rfl

end Emphasis

/-! ## Any depth -/

/-- The visited element is emphasis of the text: content between two equal markers of one or two
delimiters, well formed between the texts that stand around it. -/
def Visit.IsEmphasisOf (t : Text) (v : Visit) : Prop :=
  ∃ (e : Emphasis) (inside : List Element) (front behind : Text),
    let mark := Element.token (if e.strong then .strongMarker else .emphasisMarker)
      (replicate (if e.strong then 2 else 1) e.delimiter)
    v.element = .node (if e.strong then .strong else .emphasis) (mark :: inside ++ [mark]) ∧
      textOf inside = e.content ∧ t = front ++ v.element.text ++ behind ∧
      v.start = byteLength front ∧ e.WellFormed front behind

namespace Inline

theorem nodesBehind_consText (k : Kind) (above : List Element) (front t : Text)
    (es : List Element) :
    nodesBehind k above front (consText t es) = nodesBehind k above (front ++ t) es := by
  unfold consText
  split
  · rw [nodesBehind_token, nodesBehind_token, append_assoc]
  · rw [nodesBehind_token]

theorem isNode_of_mem_tokenUnlessEmpty {k : Kind} {t : Text} :
    ∀ e ∈ tokenUnlessEmpty k t, e.isNode = false := fun e he =>
  (every_tokenUnlessEmpty (P := fun e => e.isNode = false) (fun _ => rfl) e he).self

/-- A node made of tokens holds no node but itself. -/
theorem not_mem_nodesBehind_of_tokens {k k₁ : Kind} (other : k₁ ≠ k) {es : List Element}
    (tokens : ∀ e ∈ es, e.isNode = false) (above : List Element) (front : Text) (v : Visit) :
    v ∉ nodesBehind k above front [.node k₁ es] := by
  have inside : ∀ e ∈ es, Every (fun e => e.isNode = true → e.kind ≠ k) e := by
    intro e he
    have plain := tokens e he
    cases e with
    | token k₂ u => exact .token fun node => absurd (plain.symm.trans node) Bool.false_ne_true
    | node => cases plain
  have all : Every (fun e => e.isNode = true → e.kind ≠ k) (.node k₁ es) :=
    .node (fun _ => other) inside
  rw [nodesBehind_eq_nil _ _ (forall_mem_singleton.2 all)]
  exact not_mem_nil

section Kind

variable {k : Kind} (hk : k = .emphasis ∨ k = .strong)

include hk

/-- Emphasis in a construct: the construct itself, or in the running text inside, around which there
are brackets or delimiters. -/
theorem isEmphasisOf_of_mem_element {m : Markup} {inside : List Element}
    (h : m.Reads before t rest) (text : textOf inside = m.inner)
    (inner : ∀ above {front behind}, endsBy isAlphanumeric front = false →
      startsBy isAlphanumeric behind = false →
      ∀ v ∈ nodesBehind k above front inside, v.IsEmphasisOf (front ++ m.inner ++ behind))
    (above : List Element) (hfront : endsBy isAlphanumeric front = before.any isAlphanumeric)
    (hbehind : startsBy isAlphanumeric behind = false) :
    ∀ v ∈ nodesBehind k above front [m.element inside],
      v.IsEmphasisOf (front ++ m.source ++ (rest ++ behind)) := by
  intro v hv
  have other {k₁ : Kind} (h : k₁ ≠ .emphasis ∧ k₁ ≠ .strong) : k₁ ≠ k := by
    rcases hk with rfl | rfl
    · exact h.1
    · exact h.2
  cases m with
  | escape c => simp [Markup.element] at hv
  | codeSpan s =>
    refine absurd hv (not_mem_nodesBehind_of_tokens (other (by decide)) ?_ above front v)
    exact forall_mem_append.2
      ⟨forall_mem_cons.2 ⟨rfl, isNode_of_mem_tokenUnlessEmpty⟩, forall_mem_singleton.2 rfl⟩
  | autolink address => simp [Markup.element] at hv
  | image l =>
    refine absurd hv (not_mem_nodesBehind_of_tokens (other (by decide)) ?_ above front v)
    exact forall_mem_append.2
      ⟨forall_mem_cons.2 ⟨rfl, isNode_of_mem_tokenUnlessEmpty⟩, forall_mem_singleton.2 rfl⟩
  | link l =>
    have notLink : Kind.link ≠ k := other (by decide)
    have notText : Kind.linkText ≠ k := other (by decide)
    simp only [Markup.element, nodesBehind_node, nodesBehind_token, nodesBehind_nil, append_nil,
      if_neg notLink, if_neg notText, nil_append] at hv
    have opening : endsBy isAlphanumeric (front ++ ['[']) = false :=
      (endsBy_append front rfl).trans (by decide : isAlphanumeric '[' = false)
    have closing : startsBy isAlphanumeric (l.tail ++ (rest ++ behind)) = false :=
      (by decide : isAlphanumeric ']' = false)
    have found := inner _ opening closing v hv
    simpa [Markup.source, Link.source, Markup.inner] using found
  | emphasis e =>
    have formed := e.wellFormed_of_read? h hfront hbehind
    have mark : isAlphanumeric e.delimiter = false := by
      rcases formed.delimiter with h | h <;> rw [h] <;> decide
    rw [Markup.element, nodesBehind_node, cons_append, nodesBehind_token, nodesBehind_append,
      nodesBehind_token, nodesBehind_nil, nodesBehind_nil, append_nil, append_nil, mem_append] at hv
    rcases hv with hv | hv
    · -- the emphasis itself
      obtain rfl := mem_singleton.1 (List.mem_ite_nil_right.1 hv).2
      refine ⟨e, inside, front, rest ++ behind, rfl, text, ?_, rfl, formed⟩
      simp [Markup.source, Emphasis.source, Element.text, text, Markup.inner]
    · -- emphasis inside of it
      have opening : endsBy isAlphanumeric (front ++ e.marker) = false :=
        (endsBy_append front e.getLast?_marker).trans mark
      have closing : startsBy isAlphanumeric (e.marker ++ (rest ++ behind)) = false :=
        (e.startsBy_marker_append _).trans mark
      have found := inner _ opening closing v hv
      simpa [Markup.source, Emphasis.source, Markup.inner] using found

/-- Emphasis in running text, wherever that stands: the character in front of it tells whether a
letter or digit does, and none follows. The induction goes along the constructs, from a link and
from emphasis to the running text inside. -/
theorem isEmphasisOf_of_mem (before : Option Char) (t : Text) (above : List Element)
    (hfront : endsBy isAlphanumeric front = before.any isAlphanumeric)
    (hbehind : startsBy isAlphanumeric behind = false) :
    ∀ v ∈ nodesBehind k above front (elementsBehind before t),
      v.IsEmphasisOf (front ++ t ++ behind) := by
  fun_induction elementsBehind before t generalizing above front behind with
  | case1 => exact forall_mem_nil _
  | case2 before c rest m after h inside later =>
    have read := Markup.reads_of_read? h
    have element : textOf [m.element (elementsBehind none m.inner)] = m.source := by
      rw [textOf_eq_flatMap, tokensOf_cons, tokensOf_nil, append_nil]
      exact (Markup.spells_element (spells_elementsBehind none m.inner)).text
    rw [← singleton_append, nodesBehind_append, element, Markup.eq_of_read? h]
    refine forall_mem_append.2 ⟨?_, ?_⟩
    · -- in the construct
      have inner := isEmphasisOf_of_mem_element hk read (textOf_elementsBehind none m.inner)
        (fun above _ _ opening closing => inside above opening closing) above hfront hbehind
      simpa using inner
    · -- behind it
      have last := endsBy_append (p := isAlphanumeric) front (Markup.getLast?_source h)
      have found := later above last hbehind
      simpa using found
  | case3 before c rest h n =>
    rename_i later
    have last := endsBy_append (p := isAlphanumeric) front (getLast?_run n c)
    have text : replicate (1 + n) c ++ rest.drop n = c :: rest := by
      rw [Nat.add_comm, replicate_succ, cons_append, replicate_literalRepeats, take_append_drop]
    rw [nodesBehind_consText, ← text]
    have found := later above last hbehind
    simpa using found

end Kind

/-- All emphasis in running text is well formed where it stands. -/
theorem wellFormed_of_mem_nodesOf {k : Kind} (hk : k = .emphasis ∨ k = .strong) (t : Text)
    {v : Visit} (hv : v ∈ (Element.node .paragraph (elements t)).nodesOf k) : v.IsEmphasisOf t := by
  have other : Kind.paragraph ≠ k := by rcases hk with rfl | rfl <;> decide
  rw [nodesOf_eq, nodesBehind_node, if_neg other, nodesBehind_nil, append_nil, nil_append] at hv
  have front : endsBy isAlphanumeric [] = (none : Option Char).any isAlphanumeric := rfl
  have behind : startsBy isAlphanumeric [] = false := rfl
  have found := isEmphasisOf_of_mem hk none t _ front behind v hv
  simpa using found

/-- Strong emphasis inside emphasis inside brackets. -/
theorem wellFormed_strong_in_emphasis :
    let behind := ['*', '_', '_', 'c', '_', '_', '*', ')']
    let strong := Element.node .strong
      [.token .strongMarker ['_', '_'], .token .text ['c'], .token .strongMarker ['_', '_']]
    let outer := Element.node .emphasis
      [.token .emphasisMarker ['*'], strong, .token .emphasisMarker ['*']]
    let paragraph := Element.node .paragraph [.token .text ['('], outer, .token .text [')']]
    .node .paragraph (elements ('(' :: behind)) = paragraph ∧
      ⟨[paragraph, outer], 2, strong⟩ ∈
        (Element.node .paragraph (elements ('(' :: behind))).nodesOf .strong ∧
      (⟨[paragraph, outer], 2, strong⟩ : Visit).IsEmphasisOf ('(' :: behind) := by
  intro behind strong outer paragraph
  have opens : Markup.read? (some '(') behind =
      some (.emphasis ⟨'*', false, ['_', '_', 'c', '_', '_']⟩, [')']) := by decide +kernel
  have inside : Markup.read? none ['_', '_', 'c', '_', '_'] =
      some (.emphasis ⟨'_', true, ['c']⟩, []) := by decide +kernel
  have tree : .node .paragraph (elements ('(' :: behind)) = paragraph := by
    have plain : Markup.read? none ('(' :: behind) = none := by decide +kernel
    rw [elements, elementsBehind_of_none plain]
    change Element.node .paragraph (consText ['('] (elementsBehind (some '(') behind)) = _
    rw [elementsBehind_of_read? opens, Markup.inner, elementsBehind_of_read? inside]
    decide +kernel
  have visited : ⟨[paragraph, outer], 2, strong⟩ ∈
      (Element.node .paragraph (elements ('(' :: behind))).nodesOf .strong := by
    rw [tree]
    exact mem_of_mem_getLast? rfl
  exact ⟨tree, visited, wellFormed_of_mem_nodesOf (.inr rfl) _ visited⟩

end Inline

end TierLint
