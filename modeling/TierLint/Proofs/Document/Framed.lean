import TierLint.Proofs.Block.Every
import TierLint.Proofs.Block.Locality
import TierLint.Proofs.Document.Alike

/-!
# Documents with front matter and a code block

A document that begins with front matter and goes on, behind some blocks, with a fenced code block
(`Document.Framed`) has the elements that its shape tells: the front matter, the blocks in front of
the code, the code block and the blocks behind it, each parsed as if it stood alone
(`Document.Framed.parts`). Whatever the lines inside the two are, no rule looks inside of them: they
are inert (`FrontMatter.inert_element`, `FencedCode.inert_element`).
-/

set_option autoImplicit false

namespace TierLint

open Element

/-! ## Reading front matter and code -/

theorem takeWhile_append_cons {α : Type} {p : α → Bool} {xs : List α}
    (inside : ∀ x ∈ xs, p x = true) {y : α} (stop : p y = false) (ys : List α) :
    (xs ++ y :: ys).takeWhile p = xs := by
  rw [List.takeWhile_append_of_pos inside, List.takeWhile_cons_of_neg (by simp [stop]),
    List.append_nil]

theorem dropWhile_append_cons {α : Type} {p : α → Bool} {xs : List α}
    (inside : ∀ x ∈ xs, p x = true) {y : α} (stop : p y = false) (ys : List α) :
    (xs ++ y :: ys).dropWhile p = y :: ys := by
  rw [List.dropWhile_append_of_pos inside, List.dropWhile_cons_of_neg (by simp [stop])]

namespace FrontMatter

/-- The lines of front matter. -/
def lines (f : FrontMatter) : List Line := f.opening :: f.content ++ [f.closing]

theorem text_element (f : FrontMatter) : f.element.text = Line.textOf f.lines := by
  rw [text_eq_flatMap, f.covers_element.flatMap_text, lines]

/-- Front matter ends with the first line that may end it. -/
theorem read?_append {f : FrontMatter} (opens_ : opens f.opening = true)
    (inside : ∀ l ∈ f.content, closes l = false) (closes_ : closes f.closing = true)
    (rest : List Line) : read? (f.lines ++ rest) = some (f, rest) := by
  have goesOn : ∀ l ∈ f.content, (!closes l) = true := fun l hl => by rw [inside l hl]; rfl
  have stops : (!closes f.closing) = false := by rw [closes_]; rfl
  rw [lines, List.append_assoc, List.singleton_append, List.cons_append, read?,
    dropWhile_append_cons goesOn stops, takeWhile_append_cons goesOn stops]
  exact if_pos opens_

end FrontMatter

namespace FencedCode

/-- The lines of a code block. -/
def lines (code : FencedCode) : List Line :=
  code.opening :: code.content ++ code.closing?.toList

theorem text_element (code : FencedCode) : code.element.text = Line.textOf code.lines := by
  rw [text_eq_flatMap, code.covers_element.flatMap_text, lines]

/-- Three backticks open a code block, which ends with the first line that closes the fence. -/
theorem next_eq {opening closing : Line} {content : List Line}
    (opens : opening.content = ['`', '`', '`'])
    (inside : ∀ l ∈ content, Fence.closedBy ⟨'`', 3⟩ l = false)
    (closes : closing.content = ['`', '`', '`']) (rest : List Line) :
    Block.next opening (content ++ closing :: rest) =
      (.fencedCode ⟨⟨'`', 3⟩, opening, content, some closing⟩, rest) := by
  have blank : opening.isBlank = false := by
    rw [Line.isBlank, opens]
    rfl
  have indent : opening.indent ≤ 3 := by
    rw [Line.indent, opens]
    decide
  have fence : Fence.open? (Text.unindented opening.content) = some ⟨'`', 3⟩ := by
    rw [opens]
    rfl
  have goesOn : ∀ l ∈ content, (!Fence.closedBy ⟨'`', 3⟩ l) = true :=
    fun l hl => by rw [inside l hl]; rfl
  have stops : (!Fence.closedBy ⟨'`', 3⟩ closing) = false := by
    rw [Fence.closedBy, Line.indent, closes]
    decide
  have read : read? (opening :: (content ++ closing :: rest)) =
      some (⟨⟨'`', 3⟩, opening, content, some closing⟩, rest) := by
    rw [read?, if_pos indent, fence, Option.map_some, dropWhile_append_cons goesOn stops,
      takeWhile_append_cons goesOn stops]
    rfl
  simp [Block.next, Block.recognise?, Block.recognisers, Block.readBlank?, blank, read]

/-- The code block is parsed, whatever it holds, and then the lines behind it. -/
theorem elementsOf_eq_ok_iff {opening closing : Line} {content : List Line}
    (opens : opening.content = ['`', '`', '`'])
    (inside : ∀ l ∈ content, Fence.closedBy ⟨'`', 3⟩ l = false)
    (closes : closing.content = ['`', '`', '`']) (rest : List Line) (es : List Element) :
    Block.elementsOf (lines ⟨⟨'`', 3⟩, opening, content, some closing⟩ ++ rest) = .ok es ↔
      ∃ fs, Block.elementsOf rest = .ok fs ∧
        es = element ⟨⟨'`', 3⟩, opening, content, some closing⟩ :: fs := by
  have blocks : Block.ofLines (lines ⟨⟨'`', 3⟩, opening, content, some closing⟩ ++ rest) =
      [.fencedCode ⟨⟨'`', 3⟩, opening, content, some closing⟩] ++ Block.ofLines rest := by
    rw [lines, List.append_assoc, List.cons_append, Option.toList_some, List.singleton_append,
      Block.ofLines_cons, next_eq opens inside closes]
    rfl
  rw [Block.elementsOf_eq_mapM, Block.elementsOf_eq_mapM, blocks, mapM_append_eq_ok_iff]
  constructor
  · rintro ⟨as, fs, has, hfs, rfl⟩
    cases has
    exact ⟨fs, hfs, rfl⟩
  · rintro ⟨fs, hfs, rfl⟩
    exact ⟨_, fs, rfl, hfs, rfl⟩

end FencedCode

/-! ## Lines in front of lines that begin afresh -/

namespace Block

variable {before behind : List Line}

/-- Lines that begin afresh behind lines without an open fence are parsed as if they stood alone,
and so are those in front of them. -/
theorem elementsOf_append_eq_ok_iff (hb : before = [] ∨ EndsBlank before)
    (hf : StartsAfresh behind)
    (shut : ∀ es e, elementsOf before = .ok es → es.getLast? = some e → e.isOpenFence = false)
    (gs : List Element) : elementsOf (before ++ behind) = .ok gs ↔
      ∃ es fs, elementsOf before = .ok es ∧ elementsOf behind = .ok fs ∧ gs = es ++ fs := by
  simp only [elementsOf_eq_mapM] at shut ⊢
  rcases ofLines_append_or hb hf with eq | ⟨front, code, back, unclosed, eq, eq'⟩
  · rw [eq, mapM_append_eq_ok_iff]
  · -- the blocks in front of the open fence cannot be parsed, since all would end with it
    have fails : ∀ es, front.mapM tree ≠ .ok es := by
      intro es hes
      have whole : (ofLines before).mapM tree = .ok (es ++ [code.element]) := by
        rw [eq, mapM_append_eq_ok_iff]
        exact ⟨es, [code.element], hes, rfl, rfl⟩
      have closed := shut _ code.element whole (by simp)
      simp [isOpenFence_element unclosed] at closed
    constructor
    · intro h
      rw [eq', mapM_append_eq_ok_iff] at h
      obtain ⟨es, -, hes, -⟩ := h
      exact absurd hes (fails es)
    · rintro ⟨es, -, hes, -⟩
      rw [eq, mapM_append_eq_ok_iff] at hes
      obtain ⟨es', -, hes', -⟩ := hes
      exact absurd hes' (fails es')

end Block

/-! ## Framed documents -/

namespace Document

/-- Lines that consist of front matter around `metadata`, the lines `front`, a fenced code block
around `code`, and the lines `back`; nothing inside ends front matter or code early. -/
structure Framed (lines metadata front code back : List Line) : Prop where
  lines : ∃ top bottom opening closing : Line,
    top.content = ['-', '-', '-'] ∧ bottom.content = ['-', '-', '-'] ∧
      opening.content = ['`', '`', '`'] ∧ closing.content = ['`', '`', '`'] ∧
      lines = top :: metadata ++ bottom :: front ++ opening :: code ++ closing :: back
  metadata : ∀ l ∈ metadata, FrontMatter.closes l = false
  blank : front = [] ∨ EndsBlank front
  shut : ∀ es e, Block.elementsOf front = .ok es → es.getLast? = some e → e.isOpenFence = false
  code : ∀ l ∈ code, Fence.closedBy ⟨'`', 3⟩ l = false

variable {ls metadata front code back : List Line}

/-- The elements of a framed document. -/
theorem Framed.parts (h : Framed ls metadata front code back) :
    ∃ (f : FrontMatter) (c : FencedCode),
      f.lines.length = metadata.length + 2 ∧ c.lines.length = code.length + 2 ∧
      ls = f.lines ++ (front ++ (c.lines ++ back)) ∧
      ∀ gs, elements ls = .ok gs ↔ ∃ as bs, Block.elementsOf front = .ok as ∧
        Block.elementsOf back = .ok bs ∧ gs = f.element :: (as ++ c.element :: bs) := by
  obtain ⟨⟨top, bottom, opening, closing, htop, hbottom, hopening, hclosing, rfl⟩, hmetadata, blank,
    shut, hcode⟩ := h
  let f : FrontMatter := ⟨top, metadata, bottom⟩
  let c : FencedCode := ⟨⟨'`', 3⟩, opening, code, some closing⟩
  have lines : top :: metadata ++ bottom :: front ++ opening :: code ++ closing :: back =
      f.lines ++ (front ++ (c.lines ++ back)) := by
    simp [f, c, FrontMatter.lines, FencedCode.lines]
  refine ⟨f, c, by simp [f, FrontMatter.lines], by simp [c, FencedCode.lines], lines, fun gs => ?_⟩
  have opens : FrontMatter.opens f.opening = true := by
    rw [FrontMatter.opens, htop]
    decide
  have closes : FrontMatter.closes f.closing = true := by
    rw [FrontMatter.closes, hbottom]
    decide
  have afresh : StartsAfresh (c.lines ++ back) := by
    refine ⟨opening, code ++ closing :: back, by simp [c, FencedCode.lines], ?_, ?_, ?_⟩
    · rw [Line.isBlank, hopening]
      rfl
    · rw [Line.indent, hopening]
      rfl
    · rw [hopening]
      rfl
  have whole := Block.elementsOf_append_eq_ok_iff blank afresh shut
  have behind := FencedCode.elementsOf_eq_ok_iff hopening hcode hclosing back
  rw [lines, elements, FrontMatter.read?_append opens hmetadata closes]
  refine bind_eq_ok_iff.trans ⟨?_, ?_⟩
  · rintro ⟨hs, hhs, eq⟩
    cases eq
    obtain ⟨as, fs, has, hfs, rfl⟩ := (whole hs).1 hhs
    obtain ⟨bs, hbs, rfl⟩ := (behind fs).1 hfs
    exact ⟨as, bs, has, hbs, rfl⟩
  · rintro ⟨as, bs, has, hbs, rfl⟩
    have hfs := (behind _).2 ⟨bs, hbs, rfl⟩
    exact ⟨as ++ c.element :: bs, (whole _).2 ⟨as, _, has, hfs, rfl⟩, rfl⟩

/-- A framed document is parsed if the lines in front of the code and behind it are. -/
theorem Framed.exists_parse_iff {t : Text} (h : Framed (Line.ofText t) metadata front code back) :
    (∃ tree, parse t = .ok tree) ↔
      (∃ as, Block.elementsOf front = .ok as) ∧ ∃ bs, Block.elementsOf back = .ok bs := by
  obtain ⟨f, c, -, -, -, parsed⟩ := h.parts
  constructor
  · rintro ⟨_, htree⟩
    obtain ⟨es, hes, -⟩ := parse_eq_ok_iff.1 htree
    obtain ⟨as, bs, has, hbs, -⟩ := (parsed es).1 hes
    exact ⟨⟨as, has⟩, bs, hbs⟩
  · rintro ⟨⟨as, has⟩, bs, hbs⟩
    exact ⟨_, parse_eq_ok_iff.2 ⟨_, (parsed _).2 ⟨as, bs, has, hbs, rfl⟩, rfl⟩⟩

end Document

end TierLint
