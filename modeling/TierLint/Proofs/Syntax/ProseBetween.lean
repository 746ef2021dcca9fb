import Mathlib.Data.List.Infix
import TierLint.Proofs.Syntax.Token
import TierLint.Proofs.Text.Stretch
import TierLint.Syntax.Prose

/-!
# The prose between two bytes

The tokens of a tree stand one behind the other, so two bytes cut out a section of them, and its
prose (`Element.proseBetween`). The tokens of a node are such a section (`Visit.exists_cut`) and
make up its prose (`Visit.prose_eq`). So a section inside the node cuts the prose of the node in
three (`Visit.prose_eq_append`).
-/

set_option autoImplicit false

namespace TierLint

open Element List

/-! ## The tokens of a visited element -/

/-- The prose of tokens one behind the other. -/
def proseOfVisits (vs : List Visit) : Text := vs.flatMap (·.element.prose)

@[simp] theorem proseOfVisits_nil : proseOfVisits [] = [] := rfl

@[simp] theorem proseOfVisits_cons (v : Visit) (vs : List Visit) :
    proseOfVisits (v :: vs) = v.element.prose ++ proseOfVisits vs := flatMap_cons

@[simp] theorem proseOfVisits_append (vs ws : List Visit) :
    proseOfVisits (vs ++ ws) = proseOfVisits vs ++ proseOfVisits ws := flatMap_append

namespace Visit

/-- The visits of the element and of all inside of it. -/
def inside (v : Visit) : List Visit := visitsFrom v.ancestors v.start v.element

/-- The visits of the tokens in the element. -/
def tokens (v : Visit) : List Visit := v.inside.filter (!·.element.isNode)

variable {tree : Element} {v w : Visit}

/-- What lies inside of a visited element is visited in one go. -/
theorem inside_isInfix (h : v ∈ tree.visits) : v.inside <:+: tree.visits := by
  have all (above : List Element) (start : Nat) (es : List Element)
      (h : v ∈ visitsFromAll above start es) : v.inside <:+: visitsFromAll above start es := by
    induction es using forest_induction generalizing above start with
    | nil => cases h
    | token k t es ih =>
      rcases mem_append.1 h with h | h
      · obtain rfl := mem_singleton.1 h
        exact (prefix_append ..).isInfix
      · exact (ih _ _ h).trans (suffix_append ..).isInfix
    | node k es' es ihInside ih =>
      rcases mem_append.1 h with h | h
      · refine .trans ?_ (prefix_append ..).isInfix
        rcases mem_cons.1 h with rfl | h
        · exact infix_rfl
        · exact infix_cons (ihInside _ _ h)
      · exact (ih _ _ h).trans (suffix_append ..).isInfix
  have whole := all [] 0 [tree] (mem_append_left _ h)
  rwa [visitsFromAll, visitsFromAll, append_nil] at whole

/-- The kind and the text of a visited token. -/
def token (v : Visit) : Kind × Text := (v.element.kind, v.element.text)

theorem map_tokens (v : Visit) : v.tokens.map token = v.element.tokens := by
  have placed := congrArg (map Prod.snd) (map_visitsFrom v.ancestors v.start v.element)
  rwa [map_place, map_map] at placed

/-- The tokens of an element tile its text. -/
theorem tiles_tokens (v : Visit) : Tiles v.start v.element.text v.tokens := by
  rw [text_eq_flatMap]
  exact tiles_of_place (map_visitsFrom v.ancestors v.start v.element)

end Visit

mutual

theorem Element.prose_eq_flatMap :
    (e : Element) → e.prose = e.tokens.flatMap fun x => tokenProse x.1 x.2
  | .token k t => by simp [prose]
  | .node k es => by rw [prose, tokens_node]; exact proseOf_eq_flatMap es

/-- The prose of elements is the prose of their tokens. -/
theorem Element.proseOf_eq_flatMap :
    (es : List Element) → proseOf es = (tokensOf es).flatMap fun x => tokenProse x.1 x.2
  | [] => rfl
  | e :: es => by
    rw [proseOf, tokensOf_cons, flatMap_append, prose_eq_flatMap e, proseOf_eq_flatMap es]

end

theorem Visit.prose_of_not_isNode {v : Visit} (h : v.element.isNode = false) :
    v.element.prose = tokenProse v.element.kind v.element.text := by
  obtain ⟨above, start, e⟩ := v
  cases e with
  | token k t => simp [prose, Element.kind, text]
  | node k es => cases h

/-- The prose of an element is the prose of its tokens. -/
theorem Visit.prose_eq (v : Visit) : v.element.prose = proseOfVisits v.tokens := by
  rw [prose_eq_flatMap, ← v.map_tokens, proseOfVisits, flatMap_map]
  exact flatMap_congr fun w hw => (prose_of_not_isNode (by simpa using (mem_filter.1 hw).2)).symm

/-! ## Between two bytes -/

namespace Element

variable {tree : Element} {p q : Nat} {front vs back : List Visit}

/-- The prose of the tokens from byte `p` to byte `q`. -/
def proseBetween (tree : Element) (p q : Nat) : Text :=
  proseOfVisits (tree.tokenVisits.filter fun v => p ≤ v.start ∧ v.stop ≤ q)

theorem isNode_of_mem_tokenVisits {v : Visit} (h : v ∈ tree.tokenVisits) :
    v.element.isNode = false := by
  simpa using (mem_filter.1 h).2

/-- Without bytes there is no prose. -/
theorem proseBetween_eq_nil (tokens : ∀ v ∈ vs, v.element.isNode = false)
    (outside : ∀ v ∈ vs, v.stop ≤ p ∨ q ≤ v.start) :
    proseOfVisits (vs.filter fun v => p ≤ v.start ∧ v.stop ≤ q) = [] := by
  refine flatMap_eq_nil_iff.2 fun v hv => ?_
  obtain ⟨mem, within⟩ := mem_filter.1 hv
  have empty : v.element.text = [] := by
    by_contra ne
    have long := Text.byteLength_pos ne
    have outside := outside v mem
    rw [← byteLength_eq] at long
    rw [decide_eq_true_eq, Visit.stop] at within
    rw [Visit.stop] at outside
    omega
  rw [Visit.prose_of_not_isNode (tokens v mem), empty]
  cases v.element.kind <;> rfl

/-- The tokens between two bytes are those that neither stand in front of the first nor behind the
second. -/
theorem proseBetween_eq (cut : tree.tokenVisits = front ++ vs ++ back)
    (before : ∀ v ∈ front, v.stop ≤ p) (within : ∀ v ∈ vs, p ≤ v.start ∧ v.stop ≤ q)
    (behind : ∀ v ∈ back, q ≤ v.start) : tree.proseBetween p q = proseOfVisits vs := by
  have tokens : ∀ v ∈ front ++ vs ++ back, v.element.isNode = false := fun v hv =>
    isNode_of_mem_tokenVisits (cut ▸ hv)
  rw [forall_mem_append, forall_mem_append] at tokens
  have all : (vs.filter fun v => p ≤ v.start ∧ v.stop ≤ q) = vs :=
    filter_eq_self.2 fun v hv => decide_eq_true (within v hv)
  rw [proseBetween, cut, filter_append, filter_append, proseOfVisits_append, proseOfVisits_append,
    proseBetween_eq_nil tokens.1.1 fun v hv => .inl (before v hv),
    proseBetween_eq_nil tokens.2 fun v hv => .inr (behind v hv), all, nil_append, append_nil]

end Element

namespace Tiles

variable {start : Nat} {t : Text} {vs : List Visit}

/-- The first tile begins where the text does. -/
theorem exists_start_eq (h : Tiles start t vs) (ne : vs ≠ []) : ∃ v ∈ vs, v.start = start := by
  obtain ⟨v, vs, rfl⟩ := exists_cons_of_ne_nil ne
  exact ⟨v, mem_cons_self, h.1⟩

/-- The last tile ends where the text does. -/
theorem exists_stop_eq (h : Tiles start t vs) (ne : vs ≠ []) :
    ∃ v ∈ vs, v.stop = start + Text.byteLength t := by
  induction vs generalizing start t with
  | nil => exact absurd rfl ne
  | cons v vs ih =>
    obtain ⟨rfl, rest, rfl, tail⟩ := h
    rw [Text.byteLength_append, ← byteLength_eq, ← Nat.add_assoc]
    cases vs with
    | nil =>
      obtain rfl := tail
      exact ⟨v, mem_cons_self, rfl⟩
    | cons w vs =>
      obtain ⟨x, hx, stop⟩ := ih tail (cons_ne_nil w vs)
      exact ⟨x, mem_cons_of_mem v hx, stop⟩

/-- No tile begins in front of the text or ends behind it. -/
theorem bounds (h : Tiles start t vs) {v : Visit} (hv : v ∈ vs) :
    start ≤ v.start ∧ v.stop ≤ start + Text.byteLength t := by
  obtain ⟨before, after, rfl, at_⟩ := h.split hv
  rw [Text.byteLength_append, Text.byteLength_append, Visit.stop, byteLength_eq, at_]
  omega

end Tiles

/-- The tokens of an element that is not empty stand between those in front of it and those behind
it. -/
theorem Visit.exists_cut {tree : Element} {v : Visit} (h : v ∈ tree.visits)
    (long : v.start < v.stop) :
    ∃ front back, tree.tokenVisits = front ++ v.tokens ++ back ∧
      (∀ w ∈ front, w.stop ≤ v.start) ∧
      (∀ w ∈ v.tokens, v.start ≤ w.start ∧ w.stop ≤ v.stop) ∧ ∀ w ∈ back, v.stop ≤ w.start := by
  obtain ⟨front, back, cut⟩ := (inside_isInfix h).filter (!·.element.isNode)
  have cut : tree.tokenVisits = front ++ v.tokens ++ back := cut.symm
  have tiles := v.tiles_tokens
  have ne : v.tokens ≠ [] := by
    intro none
    rw [none] at tiles
    have empty : v.element.text = [] := tiles
    rw [stop, byteLength_eq, empty] at long
    exact absurd long (Nat.lt_irrefl _)
  -- the outermost tokens stand at the ends of the node, and those around it stand beyond them
  have sorted := tree.tiles.pairwise.2
  rw [cut, pairwise_append, pairwise_append] at sorted
  obtain ⟨⟨-, -, inFront⟩, -, behind⟩ := sorted
  refine ⟨front, back, cut, fun w hw => ?_, fun w hw => ?_, fun w hw => ?_⟩
  · obtain ⟨first, hfirst, start_eq⟩ := tiles.exists_start_eq ne
    exact start_eq ▸ inFront w hw first hfirst
  · have bounds := tiles.bounds hw
    rwa [← byteLength_eq] at bounds
  · obtain ⟨last, hlast, end_eq⟩ := tiles.exists_stop_eq ne
    have le := behind last (mem_append_right _ hlast) w hw
    rwa [end_eq, ← byteLength_eq] at le

/-! ## Sections of the tokens -/

/-- If a part of a list begins behind `front` and ends in front of `back`, it lies between them. -/
theorem exists_append_of_append_eq {α : Type} {before part behind front inside back : List α}
    (whole : before ++ part ++ behind = front ++ inside ++ back) {first last : α}
    (head : part.head? = some first) (final : part.getLast? = some last)
    (notFront : first ∉ front) (notBack : last ∉ back) :
    ∃ us ws, inside = us ++ part ++ ws ∧ before = front ++ us ∧ behind = ws ++ back := by
  obtain ⟨us, rfl, cut⟩ : ∃ us, before = front ++ us ∧ us ++ part ++ behind = inside ++ back := by
    rw [append_assoc, append_assoc] at whole
    rcases append_eq_append_iff.1 whole with ⟨_ | ⟨y, rest⟩, rfl, cut⟩ | ⟨us, rfl, cut⟩
    · exact ⟨[], by simp, by simpa using cut⟩
    · -- else the part would begin in `front`
      obtain ⟨part, rfl⟩ := head?_eq_some_iff.1 head
      obtain ⟨rfl, -⟩ := cons.inj cut
      exact absurd (mem_append_right before mem_cons_self) notFront
    · exact ⟨us, rfl, by rw [append_assoc, cut]⟩
  rcases append_eq_append_iff.1 cut with ⟨ws, rfl, rfl⟩ | ⟨rest, found, rfl⟩
  · exact ⟨us, ws, rfl, rfl, rfl⟩
  · rcases rest.eq_nil_or_concat' with rfl | ⟨rest, y, rfl⟩
    · exact ⟨us, [], by simpa using found.symm, rfl, rfl⟩
    · -- else the part would end in `back`
      have same := congrArg getLast? found
      rw [getLast?_append_of_ne_nil, final, ← append_assoc, getLast?_concat] at same
      · cases same
        exact absurd (mem_append_left behind (by simp)) notBack
      · rintro rfl
        cases final

namespace Visit

variable {tree : Element} {v first last : Visit} {vs ws part : List Visit}

/-- Where a token begins among others. -/
theorem start_of_sorted (sorted : (vs ++ v :: ws).Pairwise fun v w => v.stop ≤ w.start) :
    (∀ w ∈ vs, w.stop ≤ v.start) ∧ ∀ w ∈ v :: ws, v.start ≤ w.start := by
  rw [pairwise_append, pairwise_cons] at sorted
  obtain ⟨-, ⟨behind, -⟩, inFront⟩ := sorted
  refine ⟨fun w hw => inFront w hw v mem_cons_self, forall_mem_cons.2 ⟨Nat.le_refl _, ?_⟩⟩
  exact fun w hw => Nat.le_trans (Nat.le_add_right _ _) (behind w hw)

/-- Where a token ends among others. -/
theorem stop_of_sorted (sorted : (vs ++ v :: ws).Pairwise fun v w => v.stop ≤ w.start) :
    (∀ w ∈ vs ++ [v], w.stop ≤ v.stop) ∧ ∀ w ∈ ws, v.stop ≤ w.start := by
  rw [pairwise_append, pairwise_cons] at sorted
  obtain ⟨-, ⟨behind, -⟩, inFront⟩ := sorted
  refine ⟨forall_mem_append.2 ⟨fun w hw => ?_, forall_mem_singleton.2 (Nat.le_refl _)⟩, behind⟩
  exact Nat.le_trans (inFront w hw v mem_cons_self) (Nat.le_add_right _ _)

/-- A section of the tokens, from one that is not empty to another, lies inside a node if its bytes
do, and is the part of the node's prose between these bytes. -/
theorem prose_eq_append (hv : v ∈ tree.visits) (filled : v.start < v.stop)
    (inTree : part <:+: tree.tokenVisits) (head : part.head? = some first)
    (final : part.getLast? = some last) (longFirst : first.start < first.stop)
    (longLast : last.start < last.stop) (begins : v.start ≤ first.start)
    (ends : last.stop ≤ v.stop) :
    part <:+: v.tokens ∧ proseOfVisits part = tree.proseBetween first.start last.stop ∧
      v.element.prose = tree.proseBetween v.start first.start ++ proseOfVisits part ++
        tree.proseBetween last.stop v.stop := by
  obtain ⟨before, behind, whole⟩ := inTree
  obtain ⟨front, back, cut, inFront, within, atBack⟩ := exists_cut hv filled
  obtain ⟨us, ws, tokens, rfl, rfl⟩ := exists_append_of_append_eq (whole.trans cut) head final
    (fun mem => by have := inFront _ mem; omega) (fun mem => by have := atBack _ mem; omega)
  have sorted := tree.tiles.pairwise.2
  rw [tokens] at within
  have atFirst : ∃ rest, part = first :: rest ∧
      tree.tokenVisits = (front ++ us) ++ first :: (rest ++ (ws ++ back)) := by
    obtain ⟨rest, rfl⟩ := head?_eq_some_iff.1 head
    exact ⟨rest, rfl, by rw [← whole, append_assoc, cons_append]⟩
  have atLast : ∃ rest, part = rest ++ [last] ∧
      tree.tokenVisits = (front ++ us ++ rest) ++ last :: (ws ++ back) := by
    obtain ⟨rest, rfl⟩ := getLast?_eq_some_iff.1 final
    exact ⟨rest, rfl, by simp only [← whole, append_assoc, singleton_append]⟩
  obtain ⟨tail, atFirst, cutFirst⟩ := atFirst
  obtain ⟨init, atLast, cutLast⟩ := atLast
  obtain ⟨untilFirst, fromFirst⟩ := start_of_sorted (cutFirst ▸ sorted)
  obtain ⟨untilLast, fromLast⟩ := stop_of_sorted (cutLast ▸ sorted)
  have left : tree.proseBetween v.start first.start = proseOfVisits us :=
    proseBetween_eq cutFirst inFront
      (fun w hw => ⟨(within w (by simp [hw])).1, untilFirst w (mem_append_right _ hw)⟩) fromFirst
  have middle : tree.proseBetween first.start last.stop = proseOfVisits part := by
    refine proseBetween_eq whole.symm untilFirst (fun w hw => ⟨fromFirst w ?_, untilLast w ?_⟩)
      fromLast
    · rw [← cons_append, ← atFirst]
      exact mem_append_left _ hw
    · rw [append_assoc, ← atLast]
      exact mem_append_right _ hw
  have right : tree.proseBetween last.stop v.stop = proseOfVisits ws := by
    have behindLast : tree.tokenVisits = (front ++ us ++ init ++ [last]) ++ ws ++ back := by
      rw [cutLast, append_cons, append_assoc _ ws]
    exact proseBetween_eq behindLast untilLast
      (fun w hw => ⟨fromLast w (mem_append_left _ hw), (within w (by simp [hw])).2⟩) atBack
  refine ⟨tokens ▸ infix_append us part ws, middle.symm, ?_⟩
  rw [left, right, v.prose_eq, tokens, proseOfVisits_append, proseOfVisits_append]

end Visit

end TierLint
