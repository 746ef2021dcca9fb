import TierLint.Block.AtxHeading
import TierLint.Block.FencedCode
import TierLint.Block.FrontMatter
import TierLint.Block.Html
import TierLint.Block.IndentedCode
import TierLint.Block.ListItem
import TierLint.Block.Paragraph
import TierLint.Block.Table
import TierLint.Block.ThematicBreak
import TierLint.Proofs.Inline.Every

/-!
# Properties of every element of a block

What holds of every token that is not prose holds of all that lines, front matter and the markers of
fences are written with. The content of code is prose, but none of it is empty.
-/

set_option autoImplicit false

namespace TierLint

open Element List

variable {P : Element → Prop} (plain : ∀ {k : Kind} {t : Text}, k.isProse = false → P (.token k t))

include plain

namespace Line

theorem every_pendingElements (l : Line) : ∀ e ∈ l.pendingElements, Every P e := by
  refine forall_mem_map.2 fun run _ => .token (plain ?_)
  split <;> rfl

theorem every_elementsWith (l : Line) {content : List Element} (h : ∀ e ∈ content, Every P e) :
    ∀ e ∈ l.elementsWith content, Every P e :=
  forall_mem_append.2 ⟨forall_mem_append.2 ⟨l.every_pendingElements plain, h⟩,
    every_tokenUnlessEmpty fun _ => plain rfl⟩

theorem every_elements (l : Line) {k : Kind} (h : ∀ t, t ≠ [] → P (.token k t)) :
    ∀ e ∈ l.elements k, Every P e :=
  l.every_elementsWith plain (every_tokenUnlessEmpty (h _))

theorem every_flatMap_elements (ls : List Line) {k : Kind} (h : ∀ t, t ≠ [] → P (.token k t)) :
    ∀ e ∈ ls.flatMap (·.elements k), Every P e := by
  intro e he
  obtain ⟨l, -, he⟩ := mem_flatMap.1 he
  exact l.every_elements plain h e he

end Line

theorem FrontMatter.every_children (f : FrontMatter) : ∀ e ∈ f.element.children, Every P e := by
  have delimiter (l : Line) := l.every_elementsWith plain
    (every_trimmed (k := .frontMatterDelimiter) (fun _ => plain rfl) (fun _ _ => plain rfl)
      l.content)
  have content := Line.every_flatMap_elements plain f.content (k := .frontMatterContent)
    fun _ _ => plain rfl
  exact forall_mem_append.2 ⟨forall_mem_append.2 ⟨delimiter _, content⟩, delimiter _⟩

theorem FrontMatter.every_element (f : FrontMatter)
    (node : ∀ {es : List Element}, P (.node .frontMatter es)) : Every P f.element :=
  .node node (f.every_children plain)

theorem Line.every_blankElement (l : Line)
    (node : ∀ {es : List Element}, P (.node .blankLine es)) : Every P l.blankElement :=
  .node node (l.every_elements plain fun _ _ => plain rfl)

theorem ThematicBreak.every_element (l : Line)
    (node : ∀ {es : List Element}, P (.node .thematicBreak es)) :
    Every P (ThematicBreak.element l) :=
  .node node (l.every_elementsWith plain
    (every_trimmed (fun _ => plain rfl) (fun _ _ => plain rfl) _))

theorem Html.every_element (ls : List Line)
    (node : ∀ {es : List Element}, P (.node .htmlBlock es)) : Every P (Html.element ls) :=
  .node node (Line.every_flatMap_elements plain ls fun _ _ => plain rfl)

theorem ListItem.every_elements (i : ListItem) {inside : List Element}
    (blank : ∀ {es : List Element}, P (.node .blankLine es))
    (item : ∀ {es : List Element}, P (.node .listItem es))
    (h : ∀ e ∈ inside, Every P e) : ∀ e ∈ i.elements inside, Every P e := by
  have spaces (t : Text) : ∀ e ∈ spacing t, Every P e := every_tokenUnlessEmpty fun _ => plain rfl
  refine forall_mem_append.2 ⟨forall_mem_map.2 fun l _ => l.every_blankElement plain blank,
    forall_mem_singleton.2 (.node item (forall_mem_append.2 ⟨forall_mem_append.2
      ⟨forall_mem_append.2 ⟨forall_mem_append.2 ⟨?_, spaces _⟩, ?_⟩, spaces _⟩, h⟩))⟩
  · exact i.first.every_pendingElements plain
  · exact forall_mem_singleton.2 (.token (plain rfl))

section Prose

variable (filled : ∀ {k : Kind} {t : Text}, t ≠ [] → P (.token k t))
variable (node : ∀ {k : Kind} {es : List Element}, k.isPart = true → k.isSought = false →
  P (.node k es))

include filled node

theorem FencedCode.every_children (b : FencedCode) : ∀ e ∈ b.element.children, Every P e := by
  have spaces (t : Text) : ∀ e ∈ spacing t, Every P e := every_tokenUnlessEmpty fun _ => plain rfl
  have marker (t : Text) : ∀ e ∈ [Element.token .codeFenceMarker t], Every P e :=
    forall_mem_singleton.2 (.token (plain rfl))
  have info := every_trimmed (P := P) (k := .codeInfo) (fun _ => plain rfl) (fun _ _ => plain rfl)
  refine forall_mem_append.2 ⟨forall_mem_cons.2 ⟨.node (node rfl rfl) ?_, ?_⟩,
    forall_mem_map.2 fun l _ => .node (node rfl rfl) ?_⟩
  · exact b.opening.every_elementsWith plain
      (forall_mem_append.2 ⟨forall_mem_append.2 ⟨spaces _, marker _⟩, info _⟩)
  · split
    · exact fun e he => absurd he not_mem_nil
    · exact forall_mem_singleton.2
        (.node (node rfl rfl) (Line.every_flatMap_elements plain _ fun _ => filled))
  · exact l.every_elementsWith plain
      (forall_mem_append.2 ⟨forall_mem_append.2 ⟨spaces _, marker _⟩, spaces _⟩)

theorem FencedCode.every_element (b : FencedCode)
    (own : ∀ {es : List Element}, P (.node .codeBlock es)) : Every P b.element :=
  .node own (b.every_children plain filled node)

theorem IndentedCode.every_children (ls : List Line) :
    ∀ e ∈ (IndentedCode.element ls).children, Every P e :=
  forall_mem_singleton.2
    (.node (node rfl rfl) (Line.every_flatMap_elements plain ls fun _ => filled))

theorem IndentedCode.every_element (ls : List Line)
    (own : ∀ {es : List Element}, P (.node .codeBlock es)) : Every P (IndentedCode.element ls) :=
  .node own (every_children plain filled node ls)

variable (strong : ∀ {t : Text} {es : List Element}, t ≠ [] →
  P (.node .strong (.token .strongMarker t :: es)))

include strong

theorem AtxHeading.every_bodyElements (t : Text) : ∀ e ∈ bodyElements t, Every P e := by
  have spaces (t : Text) : ∀ e ∈ spacing t, Every P e := every_tokenUnlessEmpty filled
  refine forall_mem_append.2 ⟨forall_mem_append.2 ⟨forall_mem_append.2 ⟨forall_mem_append.2
    ⟨spaces _, forall_mem_singleton.2 (.node (node rfl rfl) ?_)⟩, spaces _⟩,
    every_tokenUnlessEmpty filled⟩, spaces _⟩
  exact Inline.every_elements plain filled node strong _

theorem Paragraph.every_lineElements (l : Line) : ∀ e ∈ lineElements l, Every P e :=
  l.every_elementsWith plain (forall_mem_append.2
    ⟨every_tokenUnlessEmpty filled, Inline.every_elements plain filled node strong _⟩)

namespace Table

theorem every_pieceElements (outer : Bool) (t : Text) : ∀ e ∈ pieceElements outer t, Every P e := by
  unfold pieceElements
  split
  · exact every_tokenUnlessEmpty filled
  · refine forall_mem_singleton.2 (.node (node rfl rfl) (forall_mem_append.2 ⟨forall_mem_append.2
      ⟨every_tokenUnlessEmpty filled, ?_⟩, every_tokenUnlessEmpty filled⟩))
    exact Inline.every_elements plain filled node strong _

theorem every_furtherElements (ps : List Text) : ∀ e ∈ furtherElements ps, Every P e := by
  have pieces := every_pieceElements plain filled node strong
  induction ps with
  | nil => exact forall_mem_nil _
  | cons piece rest ih =>
    have pipe : Every P (.token .tablePipe ['|']) := .token (plain rfl)
    cases rest with
    | nil => exact forall_mem_cons.2 ⟨pipe, pieces true piece⟩
    | cons => exact forall_mem_append.2 ⟨forall_mem_cons.2 ⟨pipe, pieces false piece⟩, ih⟩

theorem every_rowElement (l : Line) : Every P (rowElement l) := by
  refine .node (node rfl rfl) (l.every_elementsWith plain ?_)
  unfold rowElements
  split
  · exact forall_mem_nil _
  · exact forall_mem_append.2 ⟨every_pieceElements plain filled node strong _ _,
      every_furtherElements plain filled node strong _⟩

theorem every_children (t : Table) : ∀ e ∈ t.element.children, Every P e := by
  have rows := every_rowElement plain filled node strong
  exact forall_mem_cons.2 ⟨rows _, forall_mem_cons.2
    ⟨.node (node rfl rfl) (t.delimiter.every_elementsWith plain
      (every_trimmed (fun _ => plain rfl) (fun _ _ => plain rfl) _)),
    forall_mem_map.2 fun l _ => rows l⟩⟩

theorem every_element (t : Table) (own : ∀ {es : List Element}, P (.node .table es)) :
    Every P t.element :=
  .node own (t.every_children plain filled node strong)

end Table

end Prose

end TierLint
