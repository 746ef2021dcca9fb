import TierLint.Proofs.Block.Every
import TierLint.Proofs.Document.Alike
import TierLint.Proofs.Syntax.Order

/-!
# The shape of documents

In the tree of a document no token of prose is empty, strong emphasis begins with its marker, no
heading and no paragraph is empty, and no paragraph stands inside another (`Element.Sound`). All of
this holds at every depth (`Document.sound_of_elements`).

That headings and paragraphs are not empty follows from what their elements cover: the first line
of a block, which is not blank unless the block is.
-/

set_option autoImplicit false

namespace TierLint

open Element List

namespace Element.Sound

theorem plain {k : Kind} {t : Text} (hk : k.isProse = false) : Sound (.token k t) := by
  intro prose
  rw [hk] at prose
  cases prose

theorem filled {k : Kind} {t : Text} (ne : t ≠ []) : Sound (.token k t) := fun _ => ne

theorem node {k : Kind} {es : List Element} (_ : k.isPart = true) (hk : k.isSought = false) :
    Sound (.node k es) := by
  cases k <;> first | exact trivial | cases hk

theorem strong {t : Text} {es : List Element} (ne : t ≠ []) :
    Sound (.node .strong (.token .strongMarker t :: es)) := ⟨t, es, ne, rfl⟩

end Element.Sound

/-- Lines of running text are sound, and no paragraph stands in them. -/
theorem Paragraph.sound_lineElements (ls : List Line) :
    ∀ e ∈ ls.flatMap lineElements, Every Sound e := by
  intro e he
  obtain ⟨l, -, he⟩ := mem_flatMap.1 he
  exact every_lineElements Sound.plain Sound.filled Sound.node Sound.strong l e he

theorem Paragraph.not_paragraph_lineElements (ls : List Line) :
    ∀ e ∈ ls.flatMap lineElements, Every (fun e => e.isNode = true → e.kind ≠ .paragraph) e := by
  intro e he
  obtain ⟨l, -, he⟩ := mem_flatMap.1 he
  refine every_lineElements ?_ ?_ ?_ ?_ l e he
  · exact fun _ node => by cases node
  · exact fun _ node => by cases node
  · exact fun _ hk _ => Kind.ne_of_isSought rfl hk
  · exact fun _ _ => Kind.noConfusion

theorem exists_of_mem_zipWith {α β γ : Type} {f : α → β → γ} {xs : List α} {ys : List β} {z : γ}
    (h : z ∈ zipWith f xs ys) : ∃ x y, x ∈ xs ∧ y ∈ ys ∧ z = f x y := by
  rw [← map_uncurry_zip_eq_zipWith] at h
  obtain ⟨⟨x, y⟩, pair, rfl⟩ := mem_map.1 h
  exact ⟨x, y, (of_mem_zip pair).1, (of_mem_zip pair).2, rfl⟩

theorem forall_mem_of_forall₂ {α β : Type} {p : β → Prop} {xs : List α} {ys : List β}
    (h : Forall₂ (fun _ y => p y) xs ys) : ∀ y ∈ ys, p y := by
  induction h with
  | nil => exact forall_mem_nil _
  | cons first _ ih => exact forall_mem_cons.2 ⟨first, ih⟩

namespace Block

variable {l : Line} {ls rest : List Line} {b : Block} {inner : List (List Element)} {e : Element}

/-- A blank line is a block of its own. -/
theorem next_of_isBlank (blank : l.isBlank = true) (ls : List Line) :
    next l ls = (.blank l, ls) := by
  simp [next, recognise?, recognisers, readBlank?, blank]

/-- A block that is not a blank line is not empty: it holds its first line. -/
theorem text_ne_nil (h : next l ls = (b, rest)) (hb : ∀ k, b ≠ .blank k)
    (covers : Covers b.lines e.tokens) : e.text ≠ [] := by
  have ink : l.content ≠ [] := by
    intro empty
    rw [next_of_isBlank (by rw [Line.isBlank, empty]; rfl)] at h
    cases h
    exact hb l rfl
  have shorter := (suffix_and_lighter_of_next h).1.length_le
  have faces := (lines_next h).2
  rw [text_eq_flatMap, covers.flatMap_text]
  cases lines : b.lines with
  | nil =>
    have lengths := congrArg length faces
    rw [lines, length_append, length_map, length_map, length_map, length_nil,
      length_cons] at lengths
    omega
  | cons k ks =>
    rw [lines, map_cons, cons_append, map_cons] at faces
    have body : k.body = l.body := congrArg Prod.fst (cons.inj faces).1
    intro empty
    have first : k.body ++ k.ending.text = [] := (append_eq_nil_iff.1 empty).1
    rw [body, Line.body] at first
    simp [ink] at first

/-- The element of a block is sound if those inside the block are. -/
theorem sound_element (h : next l ls = (b, rest)) (hinner : ∀ es ∈ inner, ∀ e ∈ es, Every Sound e)
    (covers : Covers b.lines e.tokens) (he : b.element inner = .ok e) : Every Sound e := by
  cases b with
  | blank k =>
    cases he
    exact k.every_blankElement Sound.plain trivial
  | fencedCode code =>
    cases he
    exact code.every_element Sound.plain Sound.filled Sound.node trivial
  | atxHeading heading =>
    have ne := text_ne_nil h (fun _ => Block.noConfusion) covers
    rw [element, AtxHeading.element] at he
    split at he
    · cases he
      refine .node ne (heading.line.every_elementsWith Sound.plain (forall_mem_append.2
        ⟨forall_mem_append.2 ⟨every_tokenUnlessEmpty Sound.filled, forall_mem_singleton.2
          (.node trivial (forall_mem_singleton.2 (.token (Sound.plain rfl))))⟩, ?_⟩))
      exact AtxHeading.every_bodyElements Sound.plain Sound.filled Sound.node Sound.strong _
    · cases he
  | thematicBreak k =>
    cases he
    exact ThematicBreak.every_element Sound.plain k trivial
  | quote lines =>
    cases he
    refine .node trivial fun e he => ?_
    obtain ⟨es, hes, he⟩ := mem_flatten.1 he
    exact hinner es hes e he
  | list items =>
    cases he
    refine .node trivial fun e he => ?_
    obtain ⟨es, hes, he⟩ := mem_flatten.1 he
    obtain ⟨i, inside, -, hinside, rfl⟩ := exists_of_mem_zipWith hes
    exact i.every_elements Sound.plain trivial trivial (hinner inside hinside) e he
  | html lines =>
    cases he
    exact Html.every_element Sound.plain lines trivial
  | table t =>
    cases he
    exact t.every_element Sound.plain Sound.filled Sound.node Sound.strong trivial
  | indentedCode lines =>
    cases he
    exact IndentedCode.every_element Sound.plain Sound.filled Sound.node lines trivial
  | paragraph p =>
    have ne := text_ne_nil h (fun _ => Block.noConfusion) covers
    obtain ⟨lines, underline?⟩ := p
    cases underline? with
    | none =>
      cases he
      exact .node ⟨ne, Paragraph.not_paragraph_lineElements lines⟩
        (Paragraph.sound_lineElements lines)
    | some u =>
      cases he
      refine .node ne (forall_mem_cons.2 ⟨.node trivial (Paragraph.sound_lineElements lines),
        forall_mem_singleton.2 (.node trivial (u.every_elementsWith Sound.plain ?_))⟩)
      exact every_trimmed (fun _ => Sound.plain rfl) (fun _ => Sound.filled) _
  | literal k =>
    have ne := text_ne_nil h (fun _ => Block.noConfusion) covers
    cases he
    refine .node ⟨ne, ?_⟩ (k.every_elements Sound.plain fun _ => Sound.filled)
    exact k.every_elements (fun _ node => by cases node) fun _ _ node => by cases node

/-- Elements of lines are sound. -/
theorem sound_of_elementsOf {ls : List Line} {es : List Element} (h : elementsOf ls = .ok es) :
    ∀ e ∈ es, Every Sound e := by
  -- what the elements cover is needed along the way, for the blocks that are not empty
  refine And.right (elementsOf_induction
    (P := fun ls es => Covers ls (tokensOf es) ∧ ∀ e ∈ es, Every Sound e) ?_ ?_ h)
  · exact ⟨.nil, forall_mem_nil _⟩
  · intro l ls b rest inner first others hnext hinner hfirst hothers
    obtain ⟨marked, faces⟩ := lines_next hnext
    have covers := covers_element marked (hinner.imp fun _ _ => And.left) hfirst
    have inside := forall_mem_of_forall₂ (hinner.imp fun _ _ => And.right)
    refine ⟨?_, forall_mem_cons.2 ⟨sound_element hnext inside covers hfirst, hothers.2⟩⟩
    rw [tokensOf_cons]
    refine (covers.append hothers.1).of_map_face ?_
    rw [map_append, faces]

end Block

/-- Elements of documents are sound. -/
theorem Document.sound_of_elements {ls : List Line} {es : List Element} (h : elements ls = .ok es) :
    ∀ e ∈ es, Every Sound e := by
  rw [elements] at h
  split at h
  · rename_i f rest _
    obtain ⟨others, hothers, eq⟩ := exists_of_bind_eq_ok h
    cases eq
    exact forall_mem_cons.2 ⟨f.every_element Sound.plain trivial, Block.sound_of_elementsOf hothers⟩
  · exact Block.sound_of_elementsOf h

end TierLint
