import TierLint.Proofs.Text.Cut
import TierLint.Syntax.Visit

/-!
# Tokens of a tree

The tokens of a tree in document order, as pairs of kind and text, and as the visits that carry
them. The visits of tokens stand where the lengths of the tokens in front of them put them
(`map_tokenVisits`). So they tile the text of the tree from the first byte to the last (`tiles`),
and a token's text is the part of the text between its two offsets (`Tiles.slice?`).

Statements about trees are shown by one induction over sequences of elements (`forest_induction`),
along which a node is followed by the elements behind it.
-/

set_option autoImplicit false

namespace TierLint

namespace Element

/-- Induction over a sequence of elements, with the statement at hand for what is inside the first
of them and for what is behind it. -/
@[elab_as_elim]
theorem forest_induction {motive : List Element → Prop} (nil : motive [])
    (token : ∀ k t es, motive es → motive (.token k t :: es))
    (node : ∀ k inside es, motive inside → motive es → motive (.node k inside :: es)) :
    ∀ es, motive es
  | [] => nil
  | .token k t :: es => token k t es (forest_induction nil token node es)
  | .node k inside :: es =>
    node k inside es (forest_induction nil token node inside) (forest_induction nil token node es)

mutual

/-- The tokens of an element with their texts, in document order. -/
def tokens : Element → List (Kind × Text)
  | .token k t => [(k, t)]
  | .node _ es => tokensOf es

/-- The tokens of a sequence of elements. -/
def tokensOf : List Element → List (Kind × Text)
  | [] => []
  | e :: es => e.tokens ++ tokensOf es

end

@[simp] theorem tokens_token (k : Kind) (t : Text) : (Element.token k t).tokens = [(k, t)] := by
  simp [tokens]

@[simp] theorem tokens_node (k : Kind) (es : List Element) :
    (Element.node k es).tokens = tokensOf es := by
  simp [tokens]

@[simp] theorem tokensOf_nil : tokensOf [] = [] := by simp [tokensOf]

@[simp] theorem tokensOf_cons (e : Element) (es : List Element) :
    tokensOf (e :: es) = e.tokens ++ tokensOf es := by
  simp [tokensOf]

@[simp] theorem tokensOf_append (es fs : List Element) :
    tokensOf (es ++ fs) = tokensOf es ++ tokensOf fs := by
  induction es with
  | nil => rfl
  | cons e es ih => simp [ih]

theorem tokensOf_flatMap {α : Type} (f : α → List Element) (xs : List α) :
    tokensOf (xs.flatMap f) = xs.flatMap fun x => tokensOf (f x) := by
  induction xs with
  | nil => rfl
  | cons x xs ih => simp [ih]

mutual

theorem text_eq_flatMap : (e : Element) → e.text = e.tokens.flatMap (·.2)
  | .token k t => by simp [text]
  | .node k es => by simp [text, textOf_eq_flatMap es]

/-- The text of elements is the text of their tokens. -/
theorem textOf_eq_flatMap : (es : List Element) → textOf es = (tokensOf es).flatMap (·.2)
  | [] => rfl
  | e :: es => by simp [text_eq_flatMap e, textOf_eq_flatMap es]

end

/-- The visits of tokens. -/
def tokenVisits (tree : Element) : List Visit := tree.visits.filter (!·.element.isNode)

/-- Tokens with the offsets at which they stand, the first one at byte `start`. -/
def place (start : Nat) : List (Kind × Text) → List (Nat × Kind × Text)
  | [] => []
  | (k, t) :: ts => (start, k, t) :: place (start + Text.byteLength t) ts

theorem place_append (start : Nat) (ts us : List (Kind × Text)) :
    place start (ts ++ us) =
      place start ts ++ place (start + Text.byteLength (ts.flatMap (·.2))) us := by
  induction ts generalizing start with
  | nil => rfl
  | cons t ts ih => simp [place, ih, Nat.add_assoc]

mutual

theorem map_visitsFrom (above : List Element) (start : Nat) : (e : Element) →
    ((visitsFrom above start e).filter (!·.element.isNode)).map
      (fun v => (v.start, v.element.kind, v.element.text)) = place start e.tokens
  | .token k t => by simp [visitsFrom, isNode, kind, text, place]
  | .node k es => by
    rw [visitsFrom, List.filter_cons, tokens_node]
    exact map_visitsFromAll (above ++ [.node k es]) start es

theorem map_visitsFromAll (above : List Element) (start : Nat) : (es : List Element) →
    ((visitsFromAll above start es).filter (!·.element.isNode)).map
      (fun v => (v.start, v.element.kind, v.element.text)) = place start (tokensOf es)
  | [] => rfl
  | e :: es => by
    rw [visitsFromAll, List.filter_append, List.map_append, map_visitsFrom above start e,
      map_visitsFromAll above _ es, tokensOf_cons, place_append, ← text_eq_flatMap, byteLength_eq]

end

/-- The visits of tokens in order carry the tokens, where their lengths put them. -/
theorem map_tokenVisits (tree : Element) :
    tree.tokenVisits.map (fun v => (v.start, v.element.kind, v.element.text)) =
      place 0 tree.tokens :=
  map_visitsFrom [] 0 tree

theorem map_place (start : Nat) (ts : List (Kind × Text)) : (place start ts).map (·.2) = ts := by
  induction ts generalizing start with
  | nil => rfl
  | cons t ts ih => rw [place, List.map_cons, ih]

theorem map_kind_text_tokenVisits (tree : Element) :
    tree.tokenVisits.map (fun v => (v.element.kind, v.element.text)) = tree.tokens := by
  have placed := congrArg (List.map (·.2)) tree.map_tokenVisits
  rwa [map_place, List.map_map] at placed

end Element

/-! ## Tilings -/

/-- The visited elements lie one directly behind the other from byte `start` on, and make up the
text together. -/
def Tiles : Nat → Text → List Visit → Prop
  | _, t, [] => t = []
  | start, t, v :: vs =>
    v.start = start ∧ ∃ rest, t = v.element.text ++ rest ∧ Tiles v.stop rest vs

theorem tiles_of_place {start : Nat} {ts : List (Kind × Text)} {vs : List Visit}
    (h : vs.map (fun v => (v.start, v.element.kind, v.element.text)) = Element.place start ts) :
    Tiles start (ts.flatMap (·.2)) vs := by
  induction ts generalizing start vs with
  | nil =>
    obtain rfl : vs = [] := by simpa [Element.place] using h
    rfl
  | cons t ts ih =>
    cases vs with
    | nil => simp [Element.place] at h
    | cons v vs =>
      simp only [List.map_cons, Element.place, List.cons.injEq, Prod.mk.injEq] at h
      obtain ⟨⟨at_, -, text⟩, rest⟩ := h
      refine ⟨at_, ts.flatMap (·.2), by rw [text, List.flatMap_cons], ih ?_⟩
      rw [Visit.stop, Element.byteLength_eq, at_, text]
      exact rest

/-- The tokens of a tree tile its text. -/
theorem Element.tiles (tree : Element) : Tiles 0 tree.text tree.tokenVisits := by
  rw [text_eq_flatMap]
  exact tiles_of_place tree.map_tokenVisits

/-- Tiles stand one behind the other. -/
theorem Tiles.pairwise {start : Nat} {t : Text} {vs : List Visit} (h : Tiles start t vs) :
    (∀ v ∈ vs, start ≤ v.start) ∧ vs.Pairwise fun v w => v.stop ≤ w.start := by
  induction vs generalizing start t with
  | nil => exact ⟨List.forall_mem_nil _, .nil⟩
  | cons v vs ih =>
    obtain ⟨rfl, rest, rfl, tail⟩ := h
    obtain ⟨least, sorted⟩ := ih tail
    have further : v.start ≤ v.stop := Nat.le_add_right _ _
    refine ⟨List.forall_mem_cons.2 ⟨Nat.le_refl _, ?_⟩, List.pairwise_cons.2 ⟨least, sorted⟩⟩
    exact fun w hw => Nat.le_trans further (least w hw)

/-- What is visited stands in the text between what lies in front of it and what lies behind. -/
theorem Tiles.split {start : Nat} {t : Text} {vs : List Visit} (h : Tiles start t vs) {v : Visit}
    (hv : v ∈ vs) :
    ∃ before after, t = before ++ v.element.text ++ after ∧
      v.start = start + Text.byteLength before := by
  induction vs generalizing start t with
  | nil => simp at hv
  | cons w vs ih =>
    obtain ⟨at_, rest, rfl, tail⟩ := h
    rcases List.mem_cons.1 hv with rfl | hv
    · exact ⟨[], rest, rfl, by simpa using at_⟩
    · obtain ⟨before, after, rfl, offset⟩ := ih tail hv
      refine ⟨w.element.text ++ before, after, by simp, ?_⟩
      rw [offset, Visit.stop, Element.byteLength_eq, at_, Text.byteLength_append, Nat.add_assoc]

/-- In a tiling from the first byte on, offsets cut out of the text what is visited there. -/
theorem Tiles.slice? {t : Text} {vs : List Visit} (h : Tiles 0 t vs) {v : Visit} (hv : v ∈ vs) :
    t.slice? v.start v.stop = some v.element.text := by
  obtain ⟨before, after, rfl, offset⟩ := h.split hv
  rw [Visit.stop, Element.byteLength_eq, offset, Nat.zero_add]
  exact Text.slice?_append before v.element.text after

end TierLint
