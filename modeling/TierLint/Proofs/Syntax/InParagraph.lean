import TierLint.Proofs.Syntax.Every
import TierLint.Proofs.Text.Stretch

/-!
# Stretches inside a paragraph

A stretch of the text of some elements, given by two byte offsets, lies inside a paragraph if the
node of a paragraph contains it and begins in front of it (`Element.InParagraph`). That is what a
search for paragraphs finds (`inParagraph_iff_exists_visit`).

Let the text of the elements be cut into stretches. `Marks` says which of them lie inside a
paragraph that begins in front of them. Marks are composed as elements are: one behind the other
(`Marks.append`), inside a node (`Marks.node`, `Marks.paragraph`) and behind some tokens
(`Marks.opening`).
-/

set_option autoImplicit false

namespace TierLint

open List Text

namespace Element

/-- The bytes from `p` to `q` lie inside the node of a paragraph that begins in front of them, if
the elements begin at byte `start`. -/
inductive InParagraph (p q : Nat) : Nat → List Element → Prop
  | here {start : Nat} {inside es : List Element} :
      start < p → p < q → q ≤ start + byteLengthOf inside →
        InParagraph p q start (.node .paragraph inside :: es)
  | inside {start : Nat} {k : Kind} {inside es : List Element} :
      InParagraph p q start inside → InParagraph p q start (.node k inside :: es)
  | behind {start : Nat} {e : Element} {es : List Element} :
      InParagraph p q (start + e.byteLength) es → InParagraph p q start (e :: es)

variable {p q start : Nat} {e : Element} {es fs inside : List Element} {k : Kind}

theorem InParagraph.bounds (h : InParagraph p q start es) :
    start < p ∧ p < q ∧ q ≤ start + byteLengthOf es := by
  induction h with
  | here front filled back =>
    rw [byteLengthOf, byteLength]
    omega
  | inside _ ih =>
    rw [byteLengthOf, byteLength]
    omega
  | behind _ ih =>
    rw [byteLengthOf]
    omega

@[simp] theorem not_inParagraph_nil : ¬InParagraph p q start [] := nofun

theorem inParagraph_token_cons {t : Text} :
    InParagraph p q start (.token k t :: es) ↔ InParagraph p q (start + Text.byteLength t) es := by
  constructor
  · rintro (_ | _ | h)
    exact h
  · exact fun h => .behind (e := .token k t) h

theorem inParagraph_node_cons :
    InParagraph p q start (.node k inside :: es) ↔
      (k = .paragraph ∧ start < p ∧ p < q ∧ q ≤ start + byteLengthOf inside) ∨
        InParagraph p q start inside ∨ InParagraph p q (start + byteLengthOf inside) es := by
  constructor
  · rintro (⟨front, filled, back⟩ | h | h)
    · exact .inl ⟨rfl, front, filled, back⟩
    · exact .inr (.inl h)
    · exact .inr (.inr h)
  · rintro (⟨rfl, front, filled, back⟩ | h | h)
    · exact .here front filled back
    · exact .inside h
    · exact .behind h

theorem inParagraph_append :
    InParagraph p q start (es ++ fs) ↔
      InParagraph p q start es ∨ InParagraph p q (start + byteLengthOf es) fs := by
  induction es generalizing start with
  | nil => simp [byteLengthOf]
  | cons e es ih =>
    cases e with
    | token k t =>
      rw [cons_append, inParagraph_token_cons, inParagraph_token_cons, ih, byteLengthOf, byteLength,
        Nat.add_assoc]
    | node k inside =>
      rw [cons_append, inParagraph_node_cons, inParagraph_node_cons, ih, byteLengthOf, byteLength,
        Nat.add_assoc]
      tauto

/-- Where there are no paragraphs nothing lies inside one. -/
theorem not_inParagraph (h : ∀ e ∈ es, Every (fun e => e.isParagraph = false) e) :
    ¬InParagraph p q start es := by
  intro place
  induction place with
  | here =>
    have none := (h _ mem_cons_self).self
    cases none
  | inside _ ih => exact ih (every_node.1 (h _ mem_cons_self)).2
  | behind _ ih => exact ih fun e he => h e (mem_cons_of_mem _ he)

/-- A stretch lies inside a paragraph if a visited paragraph contains it. -/
theorem inParagraph_iff_exists_visit (filled : p < q) (above : List Element) :
    InParagraph p q start es ↔
      ∃ v ∈ visitsFromAll above start es,
        v.element.isParagraph = true ∧ v.start < p ∧ q ≤ v.stop := by
  induction es using forest_induction generalizing above start with
  | nil => simp [visitsFromAll]
  | token k t es ih =>
    rw [inParagraph_token_cons, ih above, visitsFromAll, visitsFrom]
    simp [isParagraph, isNode, byteLength]
  | node k inside es ihInside ih =>
    rw [inParagraph_node_cons, ihInside (above ++ [.node k inside]), ih above, visitsFromAll,
      visitsFrom]
    simp [isParagraph, isNode, Element.kind, byteLength, Visit.stop, or_and_right, exists_or,
      filled]

end Element

open Element

/-! ## Marks -/

/-- The stretches `texts` make up the text of the elements, and the marked ones are those that lie
inside a paragraph which begins in front of them. -/
structure Marks (texts : List Text) (es : List Element) (marks : List Bool) : Prop where
  text : textOf es = texts.flatten
  length : marks.length = texts.length
  inParagraph : ∀ start n,
    InParagraph (start + byteLength (texts.take n).flatten)
      (start + byteLength (texts.take (n + 1)).flatten) start es ↔ marks[n]? = some true

namespace Marks

variable {t : Text} {texts texts' : List Text} {es fs inside : List Element}
  {marks marks' : List Bool} {k : Kind}

theorem byteLengthOf_eq (h : Marks texts es marks) :
    byteLengthOf es = byteLength texts.flatten := by
  rw [Element.byteLengthOf_eq, h.text]

/-- The first stretch is not marked: the text in front of it belongs to other elements. -/
theorem head (h : Marks texts es marks) : marks[0]? ≠ some true := by
  intro marked
  have place := (h.inParagraph 0 0).2 marked
  exact absurd place.bounds.1 (Nat.lt_irrefl 0)

theorem byteLength_take_le (texts : List Text) (n : Nat) :
    byteLength (texts.take n).flatten ≤ byteLength texts.flatten := by
  have whole := congrArg Text.byteLength (congrArg flatten (take_append_drop n texts))
  rw [flatten_append, byteLength_append] at whole
  omega

theorem nil : Marks [] [] [] := ⟨rfl, rfl, by simp⟩

theorem append (h : Marks texts es marks) (h' : Marks texts' fs marks') :
    Marks (texts ++ texts') (es ++ fs) (marks ++ marks') := by
  refine ⟨by simp [h.text, h'.text], by simp [h.length, h'.length], fun start n => ?_⟩
  rw [inParagraph_append]
  by_cases inFront : n < texts.length
  · -- the stretch is one of `texts`, and nothing of `fs` stands in front of it
    have within := byteLength_take_le texts n
    have none : ¬InParagraph (start + byteLength (texts.take n).flatten)
        (start + byteLength (texts.take (n + 1)).flatten) (start + byteLengthOf es) fs := by
      intro place
      have := place.bounds.1
      rw [h.byteLengthOf_eq] at this
      omega
    rw [take_append_of_le_length (Nat.le_of_lt inFront), take_append_of_le_length inFront,
      or_iff_left none, getElem?_append_left (h.length ▸ inFront)]
    exact h.inParagraph start n
  · -- the stretch is one of `texts'`, and nothing of `es` reaches it
    have whole {m : Nat} (behind : texts.length ≤ m) :
        byteLength ((texts ++ texts').take m).flatten =
          byteLengthOf es + byteLength (texts'.take (m - texts.length)).flatten := by
      rw [take_append, take_of_length_le behind, flatten_append, byteLength_append,
        h.byteLengthOf_eq]
    have inFront := Nat.not_lt.1 inFront
    rw [whole inFront, whole (Nat.le_succ_of_le inFront), Nat.succ_sub inFront,
      ← Nat.add_assoc, ← Nat.add_assoc, getElem?_append_right (h.length ▸ inFront), h.length]
    rw [or_iff_right fun place => ?_]
    · exact h'.inParagraph _ _
    · have := place.bounds
      omega

/-- Without paragraphs nothing is marked. -/
theorem plain (text : textOf es = texts.flatten)
    (none : ∀ e ∈ es, Every (fun e => e.isParagraph = false) e) :
    Marks texts es (replicate texts.length false) := by
  refine ⟨text, length_replicate, fun start n => iff_of_false (not_inParagraph none) ?_⟩
  rw [getElem?_replicate]
  split <;> simp

/-- A node other than a paragraph keeps the marks of what is inside it. -/
theorem node (hk : k ≠ .paragraph) (h : Marks texts inside marks) :
    Marks texts [.node k inside] marks := by
  refine ⟨by rw [← h.text, textOf_cons, textOf_nil, append_nil]; rfl, h.length, fun start n => ?_⟩
  rw [inParagraph_node_cons]
  simpa [hk] using h.inParagraph start n

/-- In a paragraph all stretches but the first are marked, if none is empty. -/
theorem paragraph (text : textOf inside = (t :: texts).flatten)
    (none : ∀ e ∈ inside, Every (fun e => e.isParagraph = false) e)
    (filled : ∀ u ∈ t :: texts, u ≠ []) :
    Marks (t :: texts) [.node .paragraph inside] (false :: replicate texts.length true) := by
  refine ⟨by rw [← text, textOf_cons, textOf_nil, append_nil]; rfl, by simp, fun start n => ?_⟩
  have whole : byteLengthOf inside = byteLength (t :: texts).flatten := by
    rw [Element.byteLengthOf_eq, text]
  rw [inParagraph_node_cons, whole]
  simp only [true_and, not_inParagraph none, not_inParagraph_nil, or_false]
  cases n with
  | zero => simp
  | succ n =>
    rw [take_succ_cons, take_succ_cons, getElem?_cons_succ, getElem?_replicate]
    obtain ⟨first, others⟩ := forall_mem_cons.1 filled
    have front := byteLength_pos first
    by_cases within : n < texts.length
    · -- no stretch is empty, so the first one lies in front and this one is not lost
      have own : 0 < byteLength texts[n] := byteLength_pos (others _ (getElem_mem within))
      have cut := byteLength_take_le texts (n + 1)
      have step : byteLength (texts.take (n + 1)).flatten =
          byteLength (texts.take n).flatten + byteLength texts[n] := by
        rw [take_add_one, getElem?_eq_getElem within, flatten_append, byteLength_append]
        simp
      simp only [flatten_cons, byteLength_append, within, if_true, iff_true]
      omega
    · have behind := Nat.not_lt.1 within
      rw [take_of_length_le behind, take_of_length_le (Nat.le_succ_of_le behind), if_neg within]
      simp

/-- Tokens in front of the elements belong to the first stretch. -/
theorem opening (h : Marks (t :: texts) inside marks) {front : List Element}
    (tokens : ∀ e ∈ front, e.isNode = false) :
    Marks ((textOf front ++ t) :: texts) (front ++ inside) marks := by
  have none : ∀ e ∈ front, Every (fun e => e.isParagraph = false) e := by
    intro e he
    cases e with
    | token k t => exact .token rfl
    | node k inside => cases tokens _ he
  refine ⟨by simp [h.text], h.length, fun start n => ?_⟩
  rw [inParagraph_append, or_iff_right (not_inParagraph none)]
  cases n with
  | zero =>
    -- the tokens are the only text in front of the first stretch
    refine iff_of_false (fun place => ?_) h.head
    have := place.bounds.1
    rw [take_zero, flatten_nil, byteLength_nil] at this
    omega
  | succ n =>
    rw [← h.inParagraph (start + byteLengthOf front), Element.byteLengthOf_eq]
    simp [Nat.add_assoc]

end Marks

end TierLint
