import Mathlib.Data.List.Forall2
import TierLint.Proofs.Syntax.Alike
import TierLint.Syntax.TextRun

/-!
# Traversals of trees that are alike

What lies in front of an element decides where it stands. So let a relation between the texts in
front of two elements go on as the slack of two trees allows (`Tracks`). Then the nodes of one kind,
and the text runs, of alike trees correspond one to one, and the relation holds in front of any two
that correspond (`Alike.nodesBehind`, `TextRun.runsFromAll_like`).
-/

set_option autoImplicit false

namespace TierLint

open Element

/-! ## Nodes behind a text -/

/-- The kinds of nodes that rules look for. -/
def Kind.isSought : Kind → Bool
  | .strong | .paragraph | .heading => true
  | _ => false

theorem Kind.ne_of_isSought {k k₁ : Kind} (hk : k.isSought = true) (h : k₁.isSought = false) :
    k₁ ≠ k := by
  rintro rfl
  rw [hk] at h
  cases h

/-- The nodes of kind `k` in some elements that stand behind the text `front` below `above`. -/
def Element.nodesBehind (k : Kind) (above : List Element) (front : Text) (es : List Element) :
    List Visit :=
  (visitsFromAll above (Text.byteLength front) es).filter fun v =>
    v.element.kind == k && v.element.isNode

namespace Element

variable (k : Kind) (above : List Element) (front : Text)

theorem nodesOf_eq (tree : Element) : tree.nodesOf k = nodesBehind k [] [] [tree] := by
  rw [nodesOf, visitsOf, List.filter_filter, nodesBehind, visitsFromAll, visitsFromAll,
    List.append_nil]
  simp only [Bool.and_comm]
  rfl

@[simp] theorem nodesBehind_nil : nodesBehind k above front [] = [] := rfl

@[simp] theorem nodesBehind_token (k₁ : Kind) (t : Text) (es : List Element) :
    nodesBehind k above front (.token k₁ t :: es) = nodesBehind k above (front ++ t) es := by
  rw [nodesBehind, visitsFromAll, visitsFrom, nodesBehind, Text.byteLength_append]
  simp [isNode, byteLength]

theorem nodesBehind_node (k₁ : Kind) (inside es : List Element) :
    nodesBehind k above front (.node k₁ inside :: es) =
      (if k₁ = k then [⟨above, Text.byteLength front, .node k₁ inside⟩] else [])
        ++ nodesBehind k (above ++ [.node k₁ inside]) front inside
        ++ nodesBehind k above (front ++ textOf inside) es := by
  rw [nodesBehind, visitsFromAll, visitsFrom, List.filter_append, List.filter_cons, nodesBehind,
    nodesBehind, Text.byteLength_append, byteLength, byteLengthOf_eq]
  by_cases same : k₁ = k <;> simp [kind, isNode, same]

theorem nodesBehind_append (es fs : List Element) :
    nodesBehind k above front (es ++ fs) =
      nodesBehind k above front es ++ nodesBehind k above (front ++ textOf es) fs := by
  induction es generalizing front with
  | nil => simp
  | cons e es ih =>
    cases e with
    | token k₁ t => simp [ih, text]
    | node k₁ inside => simp [nodesBehind_node, ih, text]

end Element

/-! ## Trees that are alike -/

/-- A relation between what lies in front of two places that goes on behind elements that are
alike. -/
structure Tracks (w : Slack) (M : Text → Text → Prop) : Prop where
  same : ∀ {b b' : Text} (t : Text), M b b' → M (b ++ t) (b' ++ t)
  filler : w.fillers = true → ∀ {b b' t : Text}, '\n' ∉ t → M b b' → M (b ++ t) b'
  filler' : w.fillers = true → ∀ {b b' t : Text}, '\n' ∉ t → M b b' → M b (b' ++ t)
  lineEnd : w.lineEnds = true → ∀ {b b' : Text}, M b b' → M (b ++ ['\n']) (b' ++ ['\r', '\n'])

/-- The relation holds in front of two offsets in two texts. -/
def Near (M : Text → Text → Prop) (t t' : Text) (n n' : Nat) : Prop :=
  ∃ b b', b <+: t ∧ b' <+: t' ∧ n = Text.byteLength b ∧ n' = Text.byteLength b' ∧ M b b'

namespace Alike

variable {w : Slack} {M : Text → Text → Prop} {last : Bool} {es fs : List Element}
variable {t t' b b' : Text}

/-- Behind sequences that are alike inside a document the relation holds again. -/
theorem behind (tracks : Tracks w M) (h : Alike w false es fs) (front : M b b') :
    M (b ++ textOf es) (b' ++ textOf fs) := by
  generalize hl : false = l at h
  induction h generalizing b b' with
  | nil => simpa using front
  | token _ ih => simpa [text] using ih (tracks.same _ front) hl
  | node _ _ ihInside ih =>
    subst hl
    simpa [text] using ih (ihInside front rfl) rfl
  | filler free _ ht _ ih => simpa [text] using ih (tracks.filler free ht front) hl
  | filler' free _ ht _ ih => simpa [text] using ih (tracks.filler' free ht front) hl
  | lineEnd free _ ih => simpa [text] using ih (tracks.lineEnd free front) hl
  | finalEnd => cases hl

/-- The nodes of one kind correspond one to one. The induction goes along both trees; behind a node
that ends both of them nothing is left to visit. -/
theorem nodesBehind (tracks : Tracks w M) (k : Kind) (h : Alike w last es fs) (front : M b b')
    (ht : b ++ textOf es <+: t) (ht' : b' ++ textOf fs <+: t') (above above' : List Element) :
    List.Forall₂
      (fun v v' => Near M t t' v.start v'.start ∧ ∃ last', Alike w last' [v.element] [v'.element])
      (Element.nodesBehind k above b es) (Element.nodesBehind k above' b' fs) := by
  induction h generalizing b b' above above' with
  | nil => exact .nil
  | token _ ih =>
    simp only [nodesBehind_token]
    exact ih (tracks.same _ front) (by simpa [text] using ht) (by simpa [text] using ht') _ _
  | @node l k₁ inside inside' es fs alike others ihInside ih =>
    rw [nodesBehind_node, nodesBehind_node]
    have htInside : b ++ textOf inside <+: t := by
      refine List.IsPrefix.trans ?_ ht
      simp [text]
    have htInside' : b' ++ textOf inside' <+: t' := by
      refine List.IsPrefix.trans ?_ ht'
      simp [text]
    refine List.rel_append (List.rel_append ?_ (ihInside front htInside htInside' _ _)) ?_
    · split
      · refine .cons ⟨⟨b, b', ?_, ?_, rfl, rfl, front⟩, _, alike.singleton⟩ .nil
        · exact (List.prefix_append ..).trans ht
        · exact (List.prefix_append ..).trans ht'
      · exact .nil
    · -- behind a node that ends both sequences nothing is left to visit
      rcases Alike.ends_or l es fs with ⟨rfl, rfl⟩ | inner
      · exact .nil
      · rw [inner] at alike
        exact ih (alike.behind tracks front) (by simpa [text] using ht) (by simpa [text] using ht')
          _ _
  | filler free _ ht₁ _ ih =>
    simp only [nodesBehind_token]
    exact ih (tracks.filler free ht₁ front) (by simpa [text] using ht) ht' _ _
  | filler' free _ ht₁ _ ih =>
    simp only [nodesBehind_token]
    exact ih (tracks.filler' free ht₁ front) ht (by simpa [text] using ht') _ _
  | lineEnd free _ ih =>
    simp only [nodesBehind_token]
    exact ih (tracks.lineEnd free front) (by simpa [text] using ht) (by simpa [text] using ht') _ _
  | finalEnd => simp

end Alike

/-! ## Runs -/

namespace TextRun

variable {w : Slack} {M : Text → Text → Prop} {last : Bool} {es fs : List Element}
variable {t t' b b' : Text}

/-- Two runs of the same text, both code or both not, that begin where the relation holds. -/
structure Like (M : Text → Text → Prop) (t t' : Text) (r r' : TextRun) : Prop where
  text : r.text = r'.text
  inCode : r.inCode = r'.inCode
  start : Near M t t' r.start r'.start

/-- Open runs of the same text, both broken or both not. -/
structure Open.Like (M : Text → Text → Prop) (t t' : Text) (r r' : Open) : Prop where
  text : r.text = r'.text
  broken : r.broken = r'.broken
  start : Near M t t' r.start r'.start

theorem finish_like {run? run'? : Option Open} {above above' : List Element}
    (h : Option.Rel (Open.Like M t t') run? run'?)
    (code : above.any (·.kind.isCode) = above'.any (·.kind.isCode)) :
    List.Forall₂ (Like M t t') (Open.finish above run?) (Open.finish above' run'?) := by
  cases h with
  | none => exact .nil
  | some like => exact .cons ⟨like.text, code, like.start⟩ .nil

/-- A piece of prose goes on with an open run, or begins a run where it stands. -/
theorem extend_like {run? run'? : Option Open} (h : Option.Rel (Open.Like M t t') run? run'?)
    (piece : Text) {start start' : Nat} (here : Near M t t' start start') (stop stop' : Nat) :
    Open.Like M t t' (Open.extend run? piece start stop)
      (Open.extend run'? piece start' stop') := by
  cases h with
  | none => exact ⟨rfl, rfl, here⟩
  | some like =>
    refine ⟨?_, rfl, like.start⟩
    simp only [Open.extend, like.text, like.broken]

theorem break_like {run? run'? : Option Open} (h : Option.Rel (Open.Like M t t') run? run'?) :
    Option.Rel (Open.Like M t t') (run?.map fun run => { run with broken := true })
      (run'?.map fun run => { run with broken := true }) := by
  cases h with
  | none => exact .none
  | some like => exact .some ⟨like.text, rfl, like.start⟩

theorem byteLength_add (b : Text) (e : Element) :
    Text.byteLength b + e.byteLength = Text.byteLength (b ++ e.text) := by
  rw [byteLength_eq, Text.byteLength_append]

theorem runsFromAll_filler {k : Kind} (hk : k.isFiller = true) (above : List Element) (b t : Text)
    (run? : Option Open) (es : List Element) :
    runsFromAll above (Text.byteLength b) run? (.token k t :: es) =
      runsFromAll above (Text.byteLength (b ++ t)) run? es := by
  have keeps : effect (.token k t) = .keeps := by
    cases k <;> first | rfl | cases hk
  rw [runsFromAll, keeps, byteLength_add]
  rfl

/-- The runs correspond one to one. The induction goes along both trees with the runs that are open;
a line end or a line prefix that only one side has does not end a run. -/
theorem runsFromAll_like (tracks : Tracks w M) (h : Alike w last es fs) (front : M b b')
    (ht : b ++ textOf es <+: t) (ht' : b' ++ textOf fs <+: t') {run? run'? : Option Open}
    (hrun : Option.Rel (Open.Like M t t') run? run'?) {above above' : List Element}
    (code : above.any (·.kind.isCode) = above'.any (·.kind.isCode)) :
    List.Forall₂ (Like M t t') (runsFromAll above (Text.byteLength b) run? es)
      (runsFromAll above' (Text.byteLength b') run'? fs) := by
  induction h generalizing b b' run? run'? above above' with
  | nil => exact finish_like hrun code
  | @token _ k t₁ es fs _ ih =>
    have here : Near M t t' (Text.byteLength b) (Text.byteLength b') :=
      ⟨b, b', (List.prefix_append ..).trans ht, (List.prefix_append ..).trans ht', rfl, rfl, front⟩
    have next {x y : Option Open} (hxy : Option.Rel (Open.Like M t t') x y) :=
      ih (tracks.same t₁ front) (by simpa [Element.text] using ht)
        (by simpa [Element.text] using ht') hxy code
    rw [runsFromAll, runsFromAll, byteLength_add, byteLength_add]
    cases effect (.token k t₁) with
    | «extends» piece => exact next (.some (extend_like hrun piece here _ _))
    | breaks => exact next (break_like hrun)
    | keeps => exact next hrun
    | ends => exact List.rel_append (List.rel_append (finish_like hrun code) .nil) (next .none)
  | @node l k inside inside' es fs alike others ihInside ih =>
    have htInside : b ++ textOf inside <+: t := by
      refine List.IsPrefix.trans ?_ ht
      simp [Element.text]
    have htInside' : b' ++ textOf inside' <+: t' := by
      refine List.IsPrefix.trans ?_ ht'
      simp [Element.text]
    rw [runsFromAll, runsFromAll, byteLength_add, byteLength_add]
    refine List.rel_append (List.rel_append (finish_like hrun code) ?_) ?_
    · rw [runsFrom, runsFrom]
      exact ihInside front htInside htInside' .none
        (by rw [List.any_append, List.any_append, code]; rfl)
    · -- behind a node that ends both sequences no run is left
      rcases Alike.ends_or l es fs with ⟨rfl, rfl⟩ | inner
      · exact .nil
      · rw [inner] at alike
        exact ih (alike.behind tracks front) (by simpa [Element.text] using ht)
          (by simpa [Element.text] using ht') .none code
  | @filler _ k t₁ es fs free hk ht₁ _ ih =>
    rw [runsFromAll_filler (Slack.isFiller_of_frees hk)]
    exact ih (tracks.filler free ht₁ front) (by simpa [Element.text] using ht) ht' hrun code
  | @filler' _ k t₁ es fs free hk ht₁ _ ih =>
    rw [runsFromAll_filler (Slack.isFiller_of_frees hk)]
    exact ih (tracks.filler' free ht₁ front) ht (by simpa [Element.text] using ht') hrun code
  | lineEnd free _ ih =>
    rw [runsFromAll, runsFromAll, byteLength_add, byteLength_add]
    exact ih (tracks.lineEnd free front) (by simpa [Element.text] using ht)
      (by simpa [Element.text] using ht') (break_like hrun) code
  | finalEnd =>
    -- the line end that only one side has leaves no trace
    cases hrun with
    | none => exact .nil
    | some like => exact .cons ⟨like.text, code, like.start⟩ .nil

end TextRun

end TierLint
