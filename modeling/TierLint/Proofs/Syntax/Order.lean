import TierLint.Proofs.Syntax.Every
import TierLint.Proofs.Text.Stretch

/-!
# Nodes and text runs in document order

A search lists nodes and text runs in the order of the document. In a tree whose prose is not empty
and whose nodes of one kind do not begin together (`Element.Sound`, `Element.Leads`) it lists them
in the strict order of the offsets where they start (`pairwise_nodesBehind`), and each run is a
stretch of the text (`TextRun.inOrder_runsFromAll`).
-/

set_option autoImplicit false

namespace TierLint

open Element List

/-- Prose is not empty, strong emphasis begins with its marker, headings and paragraphs are not
empty, and no paragraph stands inside a paragraph. -/
def Element.Sound : Element → Prop
  | .token k t => k.isProse = true → t ≠ []
  | .node .strong es => ∃ t inside, t ≠ [] ∧ es = .token .strongMarker t :: inside
  | .node .heading es => textOf es ≠ []
  | .node .paragraph es =>
    textOf es ≠ [] ∧ ∀ e ∈ es, Every (fun e => e.isNode = true → e.kind ≠ .paragraph) e
  | .node _ _ => True

/-- If the element is a node of kind `k`, it begins with something else than nodes of that kind
inside of it. -/
def Element.Leads (k : Kind) (e : Element) : Prop :=
  ∀ inside, e = .node k inside →
    (∃ k₁ t es, t ≠ [] ∧ inside = .token k₁ t :: es) ∨
      ∀ e ∈ inside, Every (fun e => e.isNode = true → e.kind ≠ k) e

namespace Element

theorem Sound.leads_strong {e : Element} (h : Sound e) : Leads .strong e := by
  rintro inside rfl
  obtain ⟨t, es, ne, rfl⟩ := h
  exact .inl ⟨_, t, es, ne, rfl⟩

theorem Sound.leads_paragraph {e : Element} (h : Sound e) : Leads .paragraph e := by
  rintro inside rfl
  exact .inr h.2

theorem Sound.text_ne_nil {e : Element} (h : Sound e) (node : e.isNode = true)
    (hk : e.kind.isSought = true) : e.text ≠ [] := by
  cases e with
  | token => cases node
  | node k es =>
    cases k with
    | strong =>
      obtain ⟨t, inside, ne, rfl⟩ := h
      simp [text, ne]
    | heading => exact h
    | paragraph => exact h.1
    | _ => cases hk

variable {k : Kind} {above : List Element} {b : Text} {es : List Element}

/-! ## Nodes -/

/-- A node that a search finds stands where the text in front of it ends. -/
theorem exists_of_mem_nodesBehind {v : Visit} (h : v ∈ nodesBehind k above b es) :
    ∃ c, v.start = Text.byteLength (b ++ c) ∧ b ++ c ++ v.element.text <+: b ++ textOf es := by
  induction es using forest_induction generalizing above b with
  | nil => cases h
  | token k₁ t es ih =>
    rw [nodesBehind_token] at h
    obtain ⟨c, start, front⟩ := ih h
    refine ⟨t ++ c, by rw [start, append_assoc], ?_⟩
    simpa [text] using front
  | node k₁ inside es ihInside ih =>
    rw [nodesBehind_node, mem_append, mem_append] at h
    rcases h with (h | h) | h
    · split at h
      · obtain rfl := mem_singleton.1 h
        exact ⟨[], by rw [append_nil], by simp [text]⟩
      · cases h
    · obtain ⟨c, start, front⟩ := ihInside h
      refine ⟨c, start, front.trans ?_⟩
      simp [text]
    · obtain ⟨c, start, front⟩ := ih h
      refine ⟨textOf inside ++ c, by rw [start, append_assoc], ?_⟩
      simpa [text] using front

/-- It stands between the beginning and the end of what is searched. -/
theorem bounds_of_mem_nodesBehind {v : Visit} (h : v ∈ nodesBehind k above b es) :
    Text.byteLength b ≤ v.start ∧ v.start + Text.byteLength v.element.text ≤
      Text.byteLength (b ++ textOf es) := by
  obtain ⟨c, start, front⟩ := exists_of_mem_nodesBehind h
  have bound := Text.byteLength_le_of_isPrefix front
  rw [Text.byteLength_append] at bound
  rw [start, Text.byteLength_append] at *
  omega

/-- Nodes of a kind that do not begin together start one behind the other. -/
theorem pairwise_nodesBehind (h : ∀ e ∈ es, Every (Leads k) e) :
    (nodesBehind k above b es).Pairwise fun v w => v.element.text ≠ [] → v.start < w.start := by
  induction es using forest_induction generalizing above b with
  | nil => exact .nil
  | token k₁ t es ih =>
    rw [nodesBehind_token]
    exact ih fun e he => h e (mem_cons_of_mem _ he)
  | node k₁ inside es ihInside ih =>
    have first := every_node.1 (h _ mem_cons_self)
    rw [nodesBehind_node, append_assoc, pairwise_append, pairwise_append]
    refine ⟨?_, ⟨ihInside first.2, ih fun e he => h e (mem_cons_of_mem _ he), ?_⟩, ?_⟩
    · split
      · exact pairwise_singleton ..
      · exact .nil
    · -- what is inside the node ends where the others begin
      intro v hv w hw ne
      have inner := bounds_of_mem_nodesBehind hv
      have outer := bounds_of_mem_nodesBehind hw
      have := Text.byteLength_pos ne
      omega
    · intro v hv w hw ne
      split at hv
      · rename_i same
        subst same
        obtain rfl := mem_singleton.1 hv
        rcases mem_append.1 hw with hw | hw
        · -- a node of the same kind inside this one stands behind its beginning
          rcases first.1 inside rfl with ⟨k₁, t, es', long, rfl⟩ | none
          · rw [nodesBehind_token] at hw
            have inner := (bounds_of_mem_nodesBehind hw).1
            have := Text.byteLength_pos long
            rw [Text.byteLength_append] at inner
            dsimp only
            omega
          · rw [nodesBehind_eq_nil _ _ none] at hw
            cases hw
        · have outer := (bounds_of_mem_nodesBehind hw).1
          have := Text.byteLength_pos ne
          rw [Text.byteLength_append] at outer
          simp only [text] at this
          dsimp only
          omega
      · cases hv

end Element

/-! ## Text runs -/

namespace TextRun

variable {above : List Element} {b : Text} {es : List Element} {run? : Option Open}

theorem text_ne_nil_of_effect {e : Element} {piece : Text} (h : effect e = .extends piece)
    (sound : Sound e) : e.text ≠ [] := by
  cases e with
  | token k t => exact sound (isProse_of_effect h)
  | node k inside => cases h

/-- Runs that are stretches of the text from byte `least` on, one behind the other. -/
structure InOrder (least : Nat) (t : Text) (rs : List TextRun) : Prop where
  stretch : ∀ r ∈ rs, t.IsStretch r.start r.stop
  least_le : ∀ r ∈ rs, least ≤ r.start
  sorted : rs.Pairwise (·.start < ·.start)

namespace InOrder

theorem nil (least : Nat) (t : Text) : InOrder least t [] :=
  ⟨forall_mem_nil _, forall_mem_nil _, .nil⟩

/-- Runs of the beginning of a text, and runs behind it. -/
theorem append {least : Nat} {rs rs' : List TextRun} {t : Text} (h : InOrder least b rs)
    (h' : InOrder (Text.byteLength b) t rs') (begins : b <+: t) (le : least ≤ Text.byteLength b) :
    InOrder least t (rs ++ rs') := by
  obtain ⟨u, rfl⟩ := begins
  refine ⟨forall_mem_append.2 ⟨fun r hr => (h.stretch r hr).append u, h'.stretch⟩,
    forall_mem_append.2 ⟨h.least_le, fun r hr => Nat.le_trans le (h'.least_le r hr)⟩,
    pairwise_append.2 ⟨h.sorted, h'.sorted, fun r hr r' hr' => ?_⟩⟩
  calc r.start < r.stop := (h.stretch r hr).lt
    _ ≤ Text.byteLength b := (h.stretch r hr).le
    _ ≤ r'.start := h'.least_le r' hr'

end InOrder

/-- A run that is open is a stretch of the text passed, from byte `least` on. -/
def Open.Within (least : Nat) (b : Text) (run? : Option Open) : Prop :=
  ∀ run ∈ run?, b.IsStretch run.start run.stop ∧ least ≤ run.start

namespace Open.Within

variable {least : Nat}

theorem none : Within least b none := fun _ h => by cases h

theorem append (h : Within least b run?) (t : Text) : Within least (b ++ t) run? :=
  fun run hrun => ⟨(h run hrun).1.append t, (h run hrun).2⟩

theorem extend (h : Within least b run?) (le : least ≤ Text.byteLength b) {t : Text} (ne : t ≠ [])
    (piece : Text) : Within least (b ++ t)
      (some (Open.extend run? piece (Text.byteLength b) (Text.byteLength (b ++ t)))) := by
  rintro run ⟨⟩
  cases run? with
  | none => exact ⟨.of_isPrefix ne (prefix_refl _), le⟩
  | some run => exact ⟨(h run rfl).1.extend t, (h run rfl).2⟩

theorem map_broken (h : Within least b run?) :
    Within least b (run?.map fun run => { run with broken := true }) := by
  intro run hrun
  obtain ⟨open_, hopen, rfl⟩ := Option.map_eq_some_iff.1 hrun
  exact h open_ hopen

theorem finish (h : Within least b run?) : InOrder least b (Open.finish above run?) := by
  cases run? with
  | none => exact .nil least b
  | some run =>
    exact ⟨forall_mem_singleton.2 (h run rfl).1, forall_mem_singleton.2 (h run rfl).2,
      pairwise_singleton ..⟩

end Open.Within

/-- The runs of a sound tree are stretches of its text in their order. The induction goes along the
tree with the run that is open. -/
theorem inOrder_runsFromAll {least : Nat} (sound : ∀ e ∈ es, Every Sound e)
    (within : Open.Within least b run?) (le : least ≤ Text.byteLength b) :
    InOrder least (b ++ textOf es) (runsFromAll above (Text.byteLength b) run? es) := by
  induction es using forest_induction generalizing above b run? least with
  | nil =>
    rw [textOf_nil, append_nil]
    exact within.finish
  | token k t es ih =>
    have first := (sound _ mem_cons_self).self
    have others : ∀ e ∈ es, Every Sound e := fun e he => sound e (mem_cons_of_mem _ he)
    have further : Text.byteLength b ≤ Text.byteLength (b ++ t) :=
      Text.byteLength_le_of_isPrefix (prefix_append ..)
    have le' := Nat.le_trans le further
    have text : b ++ textOf (.token k t :: es) = b ++ t ++ textOf es := by simp [Element.text]
    rw [runsFromAll, byteLength_add, text]
    cases effects : effect (.token k t) with
    | «extends» piece =>
      exact ih others (within.extend le (text_ne_nil_of_effect effects first) piece) le'
    | breaks => exact ih others (within.append t).map_broken le'
    | keeps => exact ih others (within.append t) le'
    | ends =>
      show InOrder least _ (Open.finish above run? ++ [] ++ _)
      rw [append_nil]
      exact within.finish.append (ih others .none further) (by simp) le
  | node k inside es ihInside ih =>
    have first := (every_node.1 (sound _ mem_cons_self)).2
    have others : ∀ e ∈ es, Every Sound e := fun e he => sound e (mem_cons_of_mem _ he)
    have further : Text.byteLength b ≤ Text.byteLength (b ++ textOf inside) :=
      Text.byteLength_le_of_isPrefix (prefix_append ..)
    have text : b ++ textOf (.node k inside :: es) = b ++ textOf inside ++ textOf es := by
      simp [Element.text]
    rw [runsFromAll, byteLength_add, text]
    refine InOrder.append (within.finish.append ?_ (prefix_append ..) le) ?_ (prefix_append ..)
      (Nat.le_trans le further)
    · exact ihInside first .none (Nat.le_refl _)
    · exact ih others .none (Nat.le_refl _)

end TextRun

end TierLint
