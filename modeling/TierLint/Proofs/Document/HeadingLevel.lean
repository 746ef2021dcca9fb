import TierLint.Proofs.Document.Origin
import TierLint.Proofs.Document.Total
import TierLint.Proofs.Text.Stretch

/-!
# Heading levels in the tree

The parser recognises a heading by the content that containers left of its lines. The level is read
back from the tree later: from the text of a marker or underline node, which also holds what the
containers moved aside (`Element.headingLevel?`).

For a heading with a `#` marker the two agree exactly if nothing but spaces and tabs stands in front
of the marker, since the level is counted behind white space of any kind and the marker is cut behind
spaces and tabs (`AtxHeading.count_marker_eq_iff`). For an underlined heading they agree exactly if
the underline shows the second level or no quote marker was moved aside, since the text of the
underline node then begins with `>` (`Paragraph.startsBy_underline_iff`).
-/

set_option autoImplicit false

namespace TierLint

open Element List Text

/-! ## What containers move aside -/

/-- What was moved aside of the line is spaces, tabs and quote markers. -/
def Line.MarkedAside (l : Line) : Prop := ∀ c ∈ l.pending, isIndentChar c = true ∨ c = '>'

namespace Line.MarkedAside

variable {l : Line}

theorem advance (h : l.MarkedAside) {n : Nat}
    (taken : ∀ c ∈ l.content.take n, isIndentChar c = true ∨ c = '>') : (l.advance n).MarkedAside :=
  forall_mem_append.2 ⟨h, taken⟩

/-- A quote marker is taken with the blanks around it. -/
theorem quote (quoted : Quote.isQuoted l = true) (h : l.MarkedAside) :
    (Quote.strip l).MarkedAside := by
  refine h.advance fun c hc => ?_
  obtain ⟨gap, taken, -, blanks⟩ := Quote.take_markerLength quoted
  rw [taken] at hc
  rcases mem_append.1 hc with hc | hc
  · exact .inl (mem_takeWhile_imp hc)
  · rcases mem_cons.1 hc with rfl | hc
    · exact .inr rfl
    · exact .inl (blanks c hc)

/-- An item takes indentation. -/
theorem item (offset : Nat) (h : l.MarkedAside) : (ListItem.strip offset l).MarkedAside := by
  refine h.advance fun c hc => .inl ?_
  have short : min l.indent offset ≤ (indentation l.content).length := Nat.min_le_left ..
  rw [← indentation_append_unindented l.content, take_append_of_le_length short] at hc
  exact mem_takeWhile_imp (mem_of_mem_take hc)

/-- It is so of all lines of a document, wherever parsing comes to. -/
theorem of_leadsTo {t : Text} {rest : List Line} (leads : Block.LeadsTo (Document.body t) rest) :
    ∀ l ∈ rest, l.MarkedAside := by
  refine leads.forall_mem quote (fun n _ => forall_mem_nil _) (fun offset h => h.item offset) ?_
  intro l hl c hc
  rw [Line.pending_of_cut (cut_ofText t) l ((Document.body_suffix t).subset hl)] at hc
  cases hc

end Line.MarkedAside

/-! ## Markers -/

theorem Element.textOf_singleton_token (k : Kind) (t : Text) : textOf [.token k t] = t :=
  append_nil t

/-- The text of a marker node. -/
def Element.markerText? : Element → Option Text
  | .node .headingMarker es => some (textOf es)
  | _ => none

/-- The text of the marker node of a heading, if it has one. -/
def Element.atxMarker? (heading : Element) : Option Text :=
  heading.children.findSome? markerText?

namespace AtxHeading

variable {content marker behind : Text} {n : Nat}

theorem level?_cases (h : level? content = some n) :
    runLength '#' (trimStart content) = n ∧ 1 ≤ n ∧ n ≤ 6 := by
  rw [level?] at h
  split at h
  · rename_i accepted
    cases h
    simp only [Bool.and_eq_true, decide_eq_true_eq] at accepted
    exact ⟨rfl, accepted.1.1.2, accepted.1.2⟩
  · cases h

/-- The marker that is cut off holds the run that the level counts exactly if the run begins behind
the indentation. Otherwise other white space takes the place of some `#`. -/
theorem count_marker_eq_iff (level : level? content = some n)
    (cut : splitAtByte n (unindented content) = some (marker, behind)) :
    marker.count '#' = n ↔ trimStart content = unindented content := by
  constructor
  · intro count
    by_contra odd
    obtain ⟨c, rest, eq, ws, -⟩ := exists_cons_of_trimStart_ne odd
    obtain ⟨whole, length⟩ := splitAtByte_eq_some_iff.1 cut
    cases marker with
    | nil =>
      have := (level?_cases level).2.1
      rw [byteLength_nil] at length
      omega
    | cons d marker =>
      rw [eq, cons_append, cons.injEq] at whole
      obtain ⟨rfl, -⟩ := whole
      have other : c ≠ '#' := by
        rintro rfl
        exact absurd ws (by decide)
      have few := count_le_length (a := '#') (l := marker)
      have wide := length_le_byteLength (c :: marker)
      rw [count_cons_of_ne other] at count
      rw [length_cons] at wide
      omega
  · intro indented
    rw [splitAtByte_eq_some indented level] at cut
    cases cut
    exact count_replicate_self

theorem marker_eq_iff (level : level? content = some n)
    (cut : splitAtByte n (unindented content) = some (marker, behind)) :
    marker = replicate n '#' ↔ trimStart content = unindented content := by
  constructor
  · rintro rfl
    exact (count_marker_eq_iff level cut).1 count_replicate_self
  · intro indented
    rw [splitAtByte_eq_some indented level] at cut
    cases cut
    rfl

end AtxHeading

namespace Element

/-- What is found neither in tokens in front of an element nor in it is found behind it. -/
theorem findSome?_of_tokens {α : Type} {f : Element → Option α} (hf : ∀ k t, f (.token k t) = none)
    {es : List Element} (h : ∀ e ∈ es, Every (fun e => e.isNode = false) e) :
    es.findSome? f = none := by
  refine findSome?_eq_none_iff.2 fun e he => ?_
  have token := (h e he).self
  cases e with
  | token k t => exact hf k t
  | node k inside => cases token

end Element

/-- The marker of a heading is found behind what was moved aside and the indentation. -/
theorem AtxHeading.findSome?_element {α : Type} {f : Element → Option α}
    (hf : ∀ k t, f (.token k t) = none) {h : AtxHeading} {marker behind : Text} {a : α}
    (cut : splitAtByte h.level (unindented h.line.content) = some (marker, behind))
    (found : f (.node .headingMarker [.token .headingMarker marker]) = some a) :
    ∃ e, h.element = .ok e ∧ e.children.findSome? f = some a := by
  have aside := findSome?_of_tokens hf (h.line.every_pendingElements fun _ => rfl)
  have indent := findSome?_of_tokens hf (every_tokenUnlessEmpty (k := .whitespace)
    (t := indentation h.line.content) fun _ => rfl)
  rw [AtxHeading.element, cut]
  refine ⟨_, rfl, ?_⟩
  simp only [Element.children, Line.elementsWith, findSome?_append, aside, spacing, indent,
    findSome?_cons, found, Option.none_or, Option.some_or]

namespace Paragraph

variable {u : Line}

/-- An underline consists of one character. -/
theorem exists_replicate_of_isUnderline (h : isUnderline u = true) :
    ∃ c n, (c = '=' ∨ c = '-') ∧ trim u.content = replicate (n + 1) c := by
  rw [isUnderline, Bool.and_eq_true] at h
  obtain ⟨-, h⟩ := h
  split at h
  · cases h
  · rename_i c rest eq
    simp only [Bool.and_eq_true, Bool.or_eq_true, beq_iff_eq] at h
    refine ⟨c, rest.length, h.1, ?_⟩
    rw [eq, replicate_succ, ← eq_replicate_of_mem fun d hd => beq_iff_eq.1 (all_eq_true.1 h.2 d hd)]

/-- The text of the underline with what was moved aside shows an equal sign first if the underline
consists of them and no quote marker was moved aside. -/
theorem startsBy_text_iff (underline : isUnderline u = true) (aside : u.MarkedAside) :
    startsBy (· == '=') (trimStart u.text) = true ↔
      '>' ∉ u.pending ∧ (trim u.content).all (· == '=') = true := by
  obtain ⟨c, n, sign, eq⟩ := exists_replicate_of_isUnderline underline
  have shown : (trimStart u.content).head? = some c := by
    rw [← trimEnd_append_drop (trimStart u.content), ← trim, eq]
    rfl
  have whole : (trim u.content).all (· == '=') = (c == '=') := by
    rw [eq, all_replicate]
    rfl
  rw [head?_trimStart] at shown
  rw [startsBy, head?_trimStart, Line.text, append_assoc, find?_append, find?_append, shown,
    Option.some_or, whole]
  cases first : u.pending.find? (!Unicode.isWhiteSpace ·) with
  | none =>
    have unmarked : '>' ∉ u.pending := fun mem =>
      absurd (find?_eq_none.1 first _ mem) (by decide)
    exact (and_iff_right unmarked).symm
  | some d =>
    -- the first character that is no white space is a quote marker
    obtain rfl : d = '>' := by
      refine (aside d (mem_of_find?_eq_some first)).resolve_left fun indented => ?_
      have printed := find?_some first
      rw [isWhiteSpace_of_isIndentChar indented] at printed
      cases printed
    have marked := mem_of_find?_eq_some first
    exact iff_of_false (fun shown => Bool.noConfusion shown) fun no => no.1 marked

/-- The underline of a heading stands in one of the lines that the heading was read from. -/
theorem mem_of_begin {l : Line} {ls : List Line} (h : (begin l ls).1.underline? = some u) :
    u ∈ ls ∧ isUnderline u = true := by
  obtain ⟨head, underline⟩ := Option.filter_eq_some_iff.1 h
  exact ⟨(dropWhile_sublist _).subset (mem_of_head? head), underline⟩

end Paragraph

/-! ## Headings -/

namespace Block

/-- The level that the parser recognises a heading by: that of its marker, or 1 and 2 for an underline
of equal signs and one of dashes. -/
def level? : Block → Option Nat
  | atxHeading h => AtxHeading.level? h.line.content
  | paragraph ⟨_, some u⟩ =>
    if (trim u.content).all (· == '=') then some 1
    else if (trim u.content).all (· == '-') then some 2
    else none
  | _ => none

/-- The marker that the parser recognises a heading by. Underlined headings have none. -/
def marker? : Block → Option Text
  | atxHeading h => (AtxHeading.level? h.line.content).map (replicate · '#')
  | _ => none

/-- The heading's marker stands behind spaces and tabs alone; its underline is that of the second
level, or carries no quote marker. -/
def ReadsBack : Block → Prop
  | atxHeading h => trimStart h.line.content = unindented h.line.content
  | paragraph ⟨_, some u⟩ => '>' ∈ u.pending → (trim u.content).all (· == '-') = true
  | _ => True

end Block

/-- The level and the marker of a heading with a `#` marker. -/
theorem AtxHeading.readsBack_iff {h : AtxHeading} {e : Element}
    (marked : level? h.line.content = some h.level) (he : h.element = .ok e) :
    e.headingLevel? = some h.level ∧ e.atxMarker? = some (replicate h.level '#') ↔
      trimStart h.line.content = unindented h.line.content := by
  cases cut : splitAtByte h.level (unindented h.line.content) with
  | none =>
    rw [AtxHeading.element, cut] at he
    cases he
  | some parts =>
    obtain ⟨marker, behind⟩ := parts
    obtain ⟨e₁, he₁, level⟩ := findSome?_element (f := markedLevel?) (fun _ _ => rfl) cut rfl
    obtain ⟨e₂, he₂, found⟩ := findSome?_element (f := markerText?) (fun _ _ => rfl) cut rfl
    obtain rfl : e = e₁ := Except.ok.inj (he.symm.trans he₁)
    obtain rfl : e = e₂ := Except.ok.inj (he.symm.trans he₂)
    rw [headingLevel?, atxMarker?, level, found, textOf_singleton_token, count_trim (by decide),
      Option.some_inj, Option.some_inj, count_marker_eq_iff marked cut, marker_eq_iff marked cut,
      and_self]

/-- The level of an underlined heading, which has no marker. -/
theorem Paragraph.readsBack_iff (lines : List Line) {u : Line} (underline : isUnderline u = true)
    (aside : u.MarkedAside) :
    ∃ level, (Block.paragraph ⟨lines, some u⟩).level? = some level ∧ 1 ≤ level ∧ level ≤ 6 ∧
      ((element ⟨lines, some u⟩).headingLevel? = some level ∧
        (element ⟨lines, some u⟩).atxMarker? = none ↔
          ('>' ∈ u.pending → (trim u.content).all (· == '-') = true)) := by
  have written : textOf (u.elementsWith (trimmed .headingUnderline u.content)) = u.text := by
    rw [textOf_eq_flatMap, (u.covers_elementsWith (.trimmed (by decide) _)).flatMap_text]
    exact append_nil _
  have read : (element ⟨lines, some u⟩).headingLevel? =
      some (if '>' ∉ u.pending ∧ (trim u.content).all (· == '=') = true then 1 else 2) := by
    show some (if _ then 1 else 2) = _
    rw [written]
    simp only [startsBy_text_iff underline aside]
  have noMarker : (element ⟨lines, some u⟩).atxMarker? = none := rfl
  obtain ⟨c, n, rfl | rfl, eq⟩ := exists_replicate_of_isUnderline underline
  · have equals : (trim u.content).all (· == '=') = true := by simp [eq]
    have dashes : (trim u.content).all (· == '-') = false := by simp [eq]
    refine ⟨1, by simp [Block.level?, equals], le_rfl, by omega, ?_⟩
    simp [read, noMarker, equals, dashes]
  · have equals : (trim u.content).all (· == '=') = false := by simp [eq]
    have dashes : (trim u.content).all (· == '-') = true := by simp [eq]
    refine ⟨2, by simp [Block.level?, equals, dashes], by omega, by omega, ?_⟩
    simp [read, noMarker, equals, dashes]

namespace Document

variable {t : Text} {tree : Element} {v : Visit}

/-- **Levels of headings.** Each heading in the tree of a text comes from a block that the parser has
recognised with a level from 1 to 6. The level and the marker that are read back from the heading are
those that the parser has recognised exactly if the marker stands behind spaces and tabs alone and,
for an underline of equal signs, no quote marker stands in front of it. -/
theorem headingLevel?_eq_iff (h : parse t = .ok tree) (hv : v ∈ tree.nodesOf .heading) :
    ∃ l ls level, Block.LeadsTo (body t) (l :: ls) ∧ (Block.next l ls).1.tree = .ok v.element ∧
      (Block.next l ls).1.level? = some level ∧ 1 ≤ level ∧ level ≤ 6 ∧
      (v.element.headingLevel? = some level ∧ v.element.atxMarker? = (Block.next l ls).1.marker? ↔
        (Block.next l ls).1.ReadsBack) := by
  obtain ⟨l, ls, leads, kind, ok⟩ := exists_block_of_mem_nodesOf h hv (by decide)
  obtain ⟨inner, hinner, he⟩ := Block.tree_eq_ok_iff.1 ok
  generalize v.element = e at ok he
  refine ⟨l, ls, ?_⟩
  cases eq : (Block.next l ls).1 with
  | atxHeading heading =>
    have marked : AtxHeading.level? heading.line.content = some heading.level := by
      have wellMarked := (Block.lines_next (Prod.eta (Block.next l ls)).symm).1
      rwa [eq] at wellMarked
    obtain ⟨-, positive, atMost⟩ := AtxHeading.level?_cases marked
    rw [eq] at ok he
    refine ⟨heading.level, leads, ok, marked, positive, atMost, ?_⟩
    rw [Block.marker?, marked]
    exact AtxHeading.readsBack_iff marked he
  | paragraph p =>
    obtain ⟨lines, underline?⟩ := p
    rw [eq] at kind ok he
    cases underline? with
    | none => cases kind
    | some u =>
      cases he
      obtain ⟨-, -, read⟩ := Block.paragraph_of_next eq
      obtain ⟨mem, underline⟩ := Paragraph.mem_of_begin (congrArg Paragraph.underline? read).symm
      have aside := Line.MarkedAside.of_leadsTo leads u (mem_cons_of_mem l mem)
      obtain ⟨level, found, positive, atMost, same⟩ :=
        Paragraph.readsBack_iff lines underline aside
      exact ⟨level, leads, ok, found, positive, atMost, same⟩
  | _ =>
    rw [eq] at kind
    cases kind

/-- A heading in an item of a quoted list keeps its level. -/
theorem headingLevel?_eq_iff_quoted_item :
    let t := "> - ## T".toList
    ∃ tree v, parse t = .ok tree ∧ v ∈ tree.nodesOf .heading ∧ v.element.headingLevel? = some 2 ∧
      ∃ l ls level, Block.LeadsTo (body t) (l :: ls) ∧ (Block.next l ls).1.tree = .ok v.element ∧
        (Block.next l ls).1.level? = some level ∧
        (v.element.headingLevel? = some level ∧
          v.element.atxMarker? = (Block.next l ls).1.marker? ↔ (Block.next l ls).1.ReadsBack) := by
  intro t
  have found : (parse t).toOption.map (fun tree =>
      (tree.nodesOf .heading).map (·.element.headingLevel?)) = some [some 2] := by
    decide +kernel
  cases parsed : parse t with
  | error e =>
    rw [parsed] at found
    cases found
  | ok tree =>
    rw [parsed] at found
    have levels : (tree.nodesOf .heading).map (·.element.headingLevel?) = [some 2] :=
      Option.some.inj found
    obtain ⟨v, hv, level⟩ := mem_map.1 (levels ▸ mem_singleton.2 rfl)
    obtain ⟨l, ls, n, leads, ok, recognised, -, -, same⟩ := headingLevel?_eq_iff parsed hv
    exact ⟨tree, v, rfl, hv, level, l, ls, n, leads, ok, recognised, same⟩

/-- The underline of a quoted heading carries a quote marker, and the heading is read back with the
second level though its underline consists of equal signs. -/
theorem headingLevel?_of_quoted_underline :
    let t := "> Scope\n> =====\n".toList
    let heading : Element := .node .heading
      [.node .headingContent [.token .blockQuoteMarker ['>'], .token .whitespace [' '],
        .token .text "Scope".toList, .token .newline ['\n']],
       .node .headingUnderline [.token .blockQuoteMarker ['>'], .token .whitespace [' '],
        .token .headingUnderline "=====".toList, .token .newline ['\n']]]
    let l : Line := ⟨['>', ' '], "Scope".toList, .lf⟩
    let u : Line := ⟨['>', ' '], "=====".toList, .lf⟩
    parse t = .ok (Document.tree [.node .blockQuote [heading]]) ∧
      (Document.tree [.node .blockQuote [heading]]).nodesOf .heading =
        [⟨above [.node .blockQuote [heading]] ++ [.node .blockQuote [heading]], 0, heading⟩] ∧
      Block.LeadsTo (body t) [l, u] ∧ (Block.next l [u]).1.tree = .ok heading ∧
      (Block.next l [u]).1.level? = some 1 ∧ heading.headingLevel? = some 2 := by
  dsimp only
  refine ⟨by decide +kernel, by decide +kernel, ?_, by decide +kernel, by decide +kernel,
    by decide +kernel⟩
  have quote : (Block.next ⟨[], "> Scope".toList, .lf⟩ [⟨[], "> =====".toList, .lf⟩]).1.inside =
      [[⟨['>', ' '], "Scope".toList, .lf⟩, ⟨['>', ' '], "=====".toList, .lf⟩]] := by
    decide +kernel
  have lines : body "> Scope\n> =====\n".toList =
      [⟨[], "> Scope".toList, .lf⟩, ⟨[], "> =====".toList, .lf⟩] := by
    decide +kernel
  rw [lines]
  apply Block.LeadsTo.inside
  rw [quote]
  exact mem_cons_self

end Document

end TierLint
