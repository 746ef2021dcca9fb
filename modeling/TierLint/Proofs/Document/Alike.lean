import TierLint.Document
import TierLint.Proofs.Block.Alike
import TierLint.Proofs.Document.Lossless
import TierLint.Proofs.Syntax.Traversal

/-!
# Documents on lines that are alike

Front matter is read and written like any block, so documents on lines in step have elements that
are alike (`Document.elements_alike`). The tree of a document adds two nodes around its elements,
and neither of them is looked for (`Document.nodesOf_tree`, `Document.textRuns_tree`).
-/

set_option autoImplicit false

namespace TierLint

open Element

variable {w : Slack} {last : Bool}

namespace FrontMatter

/-- Front matter, line by line alike. -/
structure Alike (w : Slack) (last : Bool) (f g : FrontMatter) : Prop where
  opening : Line.Alike w false f.opening g.opening
  content : InStep (Line.Alike w) false f.content g.content
  closing : Line.Alike w last f.closing g.closing

theorem read?_alike : ReadsAlike w (FrontMatter.Alike w) read? := by
  intro last ls ks h
  have agree : ∀ (b : Bool) (x y : Line), Line.Alike w b x y → (!closes x) = (!closes y) :=
    fun _ _ _ h => by rw [closes, closes, h.content]
  cases h with
  | nil => exact .none
  | @cons l k ls ks first others =>
    rw [read?, read?]
    have opened : opens l = opens k := by rw [opens, opens, first.content]
    have taken := (InStep.cons first others).cons_takeWhile agree
    have left := others.dropWhile agree
    generalize ls.dropWhile (!closes ·) = behind at taken left ⊢
    generalize ks.dropWhile (!closes ·) = behind' at left ⊢
    cases left with
    | nil => exact .none
    | @cons closing closing' rest rest' final following =>
      dsimp only
      rw [opened]
      split
      · rw [List.isEmpty_cons, Bool.and_false] at taken
        cases taken with
        | cons opening content => exact .some ⟨⟨opening, content, final⟩, following⟩
      · exact .none

/-- Lines behind one that is no delimiter are no front matter. -/
theorem read?_eq_none_of_opens {l : Line} (h : opens l = false) (ls : List Line) :
    read? (l :: ls) = none := by
  rw [read?]
  split
  · rw [h]
    rfl
  · rfl

theorem element_alike {f g : FrontMatter} (h : FrontMatter.Alike w last f g) :
    TierLint.Alike w last [f.element] [g.element] := by
  obtain ⟨opening, content, closing⟩ := h
  rw [element, element]
  dsimp only
  rw [opening.content, closing.content]
  exact .singleton (.append_inner (.append_inner (opening.elementsWith _)
    (content.flatMap_elements .frontMatterContent)) (closing.elementsWith _))

end FrontMatter

/-- The elements of lines make up their text. -/
theorem Block.textOf_of_elementsOf {ls : List Line} {es : List Element}
    (h : elementsOf ls = .ok es) : textOf es = Line.textOf ls := by
  rw [textOf_eq_flatMap, (covers_elementsOf h).flatMap_text]

namespace Document

/-- Documents on lines in step have elements that are alike, if they have any. -/
theorem elements_alike {ls ks : List Line} {es : List Element} (h : elements ls = .ok es)
    (lines : InStep (Line.Alike w) last ls ks) :
    ∃ fs, elements ks = .ok fs ∧ TierLint.Alike w last es fs := by
  have front := FrontMatter.read?_alike lines
  rw [elements] at h ⊢
  generalize FrontMatter.read? ls = x at h front
  generalize FrontMatter.read? ks = y at front ⊢
  cases front with
  | none => exact (Block.elementsOf_alike h).exists_alike lines
  | @some f g found =>
    obtain ⟨others, hothers, eq⟩ := exists_of_bind_eq_ok h
    cases eq
    obtain ⟨others', hothers', alike⟩ := (Block.elementsOf_alike hothers).exists_alike found.2
    refine ⟨g.1.element :: others', ?_, .cons ?_ alike⟩
    · dsimp only
      rw [hothers']
      rfl
    · rw [Block.isEmpty_of_elementsOf hothers, Block.isEmpty_of_elementsOf hothers',
        ← found.2.isEmpty_eq, Bool.and_assoc, Bool.and_self]
      exact FrontMatter.element_alike found.1

/-- The tree of a document with the given elements. -/
def tree (es : List Element) : Element := .node .root [.node .document es]

/-- The nodes above the elements of a document. -/
def above (es : List Element) : List Element := [tree es, .node .document es]

theorem parse_eq_ok_iff {t : Text} {e : Element} :
    parse t = .ok e ↔ ∃ es, elements (Line.ofText t) = .ok es ∧ e = tree es := by
  rw [parse]
  constructor
  · intro h
    obtain ⟨es, hes, eq⟩ := exists_of_bind_eq_ok h
    cases eq
    exact ⟨es, hes, rfl⟩
  · rintro ⟨es, hes, rfl⟩
    rw [hes]
    rfl

/-- The elements of a text make it up. -/
theorem textOf_of_elements {t : Text} {es : List Element} (h : elements (Line.ofText t) = .ok es) :
    textOf es = t := by
  rw [textOf_eq_flatMap, (covers_elements h).flatMap_text, Line.textOf_ofText]

theorem nodesOf_tree {k : Kind} (hr : .root ≠ k) (hd : .document ≠ k) (es : List Element) :
    (tree es).nodesOf k = nodesBehind k (above es) [] es := by
  rw [nodesOf_eq, tree, nodesBehind_node, nodesBehind_node, if_neg hr, if_neg hd]
  simp [above, tree]

theorem textRuns_tree (es : List Element) :
    (tree es).textRuns = TextRun.runsFromAll (above es) (Text.byteLength []) none es := by
  rw [textRuns, tree, TextRun.runsFrom, TextRun.runsFromAll]
  simp [TextRun.effect, TextRun.Open.finish, TextRun.runsFrom, TextRun.runsFromAll, above, tree]

end Document

end TierLint
