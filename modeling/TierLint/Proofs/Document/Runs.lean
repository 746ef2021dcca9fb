import TierLint.Proofs.Lint.Dispatch
import TierLint.Proofs.Syntax.Token

/-!
# Text runs and the prose they are made of

A text run is made of tokens of prose among the children of one node, in a section of the children
that is bounded by others (`TextRun.Source`). The search for runs goes along the children with the
run that is open; what it has passed since the last child that ends runs is either a source or no
prose at all (`TextRun.Opened`). Together the sources hold every token of prose of the tree once, in
the order of the document (`TextRun.gathers_textRuns`).

In a document no token of prose is empty. So runs lie one behind the other, and between two runs of
the same node stands a child that is part of none (`Document.textRuns_sources`).
-/

set_option autoImplicit false

namespace TierLint

open Element List

/-! ## Prose, joints and the rest -/

namespace Element

/-- The element is a token of prose. -/
def isProseToken : Element → Bool
  | .token k _ => k.isProse
  | .node _ _ => false

/-- The element is a token that may stand between two pieces of prose: a line end, white space or a
quote marker. -/
def isJoint : Element → Bool
  | .token k _ => k == .newline || k.isFiller
  | .node _ _ => false

/-- The element is anything else, and ends runs. -/
def endsRuns (e : Element) : Bool := !e.isProseToken && !e.isJoint

variable {e : Element}

theorem isProseToken_of_isJoint (h : e.isJoint = true) : e.isProseToken = false := by
  cases e with
  | token k t => cases k <;> first | rfl | cases h
  | node k es => rfl

theorem isProseToken_of_endsRuns (h : e.endsRuns = true) : e.isProseToken = false := by
  rw [endsRuns, Bool.and_eq_true, Bool.not_eq_true'] at h
  exact h.1

theorem endsRuns_eq_false_iff :
    e.endsRuns = false ↔ e.isProseToken = true ∨ e.isJoint = true := by
  cases prose : e.isProseToken <;> cases joint : e.isJoint <;> simp [endsRuns, prose, joint]

end Element

/-- The tokens of prose among what is visited. -/
def proseTokens (vs : List Visit) : List Visit := vs.filter (·.element.isProseToken)

theorem proseTokens_append (vs ws : List Visit) :
    proseTokens (vs ++ ws) = proseTokens vs ++ proseTokens ws := filter_append vs ws

theorem proseTokens_joints {vs : List Visit} (h : ∀ v ∈ vs, v.element.isJoint = true) :
    proseTokens vs = [] := by
  apply filter_eq_nil_iff.2
  intro v hv
  rw [isProseToken_of_isJoint (h v hv)]
  exact Bool.false_ne_true

/-! ## Lineages and siblings -/

/-- A chain of elements from the root of a tree downwards, each of them a child of the one in front
of it. -/
inductive Element.IsLineage (tree : Element) : List Element → Prop
  | root : IsLineage tree [tree]
  | child {above : List Element} {k : Kind} {es : List Element} {e : Element} :
      IsLineage tree (above ++ [.node k es]) → e ∈ es →
        IsLineage tree (above ++ [.node k es] ++ [e])

namespace Visit

/-- The nodes above the visited element, and it behind them. -/
def lineage (v : Visit) : List Element := v.ancestors ++ [v.element]

/-- The visits of elements side by side, the first of which stands at byte `start`. -/
def siblings (above : List Element) (start : Nat) : List Element → List Visit
  | [] => []
  | e :: es => ⟨above, start, e⟩ :: siblings above (start + e.byteLength) es

/-- The visits of the children of a node. -/
def children (v : Visit) : List Visit := siblings v.lineage v.start v.element.children

variable {above es : List Element} {start : Nat} {v : Visit}

/-- What stands above a visited element leads from the root down to it. -/
theorem isLineage_of_mem_visits {tree : Element} (h : v ∈ tree.visits) :
    tree.IsLineage v.lineage := by
  have root : ∀ e ∈ [tree], tree.IsLineage ([] ++ [e]) := forall_mem_singleton.2 .root
  have whole : v ∈ visitsFromAll [] 0 [tree] := mem_append_left _ h
  exact of_mem_visitsFromAll (R := fun above e => tree.IsLineage (above ++ [e]))
    (fun node e he => node.child he) root whole

theorem ancestors_of_mem_siblings (h : v ∈ siblings above start es) : v.ancestors = above := by
  induction es generalizing start with
  | nil => cases h
  | cons e es ih =>
    rcases mem_cons.1 h with rfl | h
    · rfl
    · exact ih h

/-- Siblings stand one behind the other. -/
theorem pairwise_siblings (above : List Element) (start : Nat) (es : List Element) :
    (∀ v ∈ siblings above start es, start ≤ v.start) ∧
      (siblings above start es).Pairwise fun v w => v.stop ≤ w.start := by
  induction es generalizing start with
  | nil => exact ⟨forall_mem_nil _, .nil⟩
  | cons e es ih =>
    obtain ⟨least, sorted⟩ := ih (start + e.byteLength)
    refine ⟨forall_mem_cons.2 ⟨Nat.le_refl start, fun v hv => ?_⟩, pairwise_cons.2 ⟨least, sorted⟩⟩
    exact Nat.le_trans (Nat.le_add_right _ _) (least v hv)

end Visit

/-- Tokens of prose stand one behind the other. -/
theorem Element.pairwise_proseTokens (tree : Element) :
    (proseTokens tree.visits).Pairwise fun v w => v.stop ≤ w.start := by
  refine tree.tiles.pairwise.2.sublist (monotone_filter_right tree.visits ?_)
  intro v prose
  cases element : v.element with
  | token k t => rfl
  | node k es =>
    rw [element] at prose
    cases prose

namespace TextRun

/-! ## Sources -/

/-- A line ends in what is visited. -/
def endsLine (vs : List Visit) : Bool := vs.any (·.element.kind == .newline)

/-- What a run is made of: tokens of prose among the children of a node, with what stands in front
of them, between them and behind them. -/
structure Source where
  parent : Visit
  lead : List Visit
  first : Visit
  /-- The further tokens of prose, each with what stands between it and the one in front of it. -/
  rest : List (List Visit × Visit)
  trail : List Visit

namespace Source

/-- The section of the children. -/
def siblings (x : Source) : List Visit :=
  x.lead ++ x.first :: x.rest.flatMap (fun (gap, v) => gap ++ [v]) ++ x.trail

/-- The tokens of prose. -/
def tokens (x : Source) : List Visit := x.first :: x.rest.map Prod.snd

/-- The last token of prose. -/
def last (x : Source) : Visit := x.tokens.getLast (cons_ne_nil _ _)

/-- The pieces of prose, with a line feed between two of them if a line ends there. -/
def text (x : Source) : Text :=
  x.first.element.prose ++
    x.rest.flatMap fun (gap, v) => (if endsLine gap then ['\n'] else []) ++ v.element.prose

/-- The run that the source makes. -/
def run (x : Source) : TextRun := ⟨x.text, x.first.start, x.last.stop, x.parent.lineage⟩

/-- Everything but the tokens of prose are joints. -/
structure WellFormed (x : Source) : Prop where
  prose : ∀ v ∈ x.tokens, v.element.isProseToken = true
  joints : ∀ v ∈ x.lead ++ x.rest.flatMap Prod.fst ++ x.trail, v.element.isJoint = true

/-- The source stands in a tree, and its section goes from a child that ends runs, or the first
child, up to the next one that does, or the last child. -/
structure StandsIn (tree : Element) (x : Source) : Prop extends WellFormed x where
  parent : x.parent ∈ tree.visits
  maximal : ∃ front back, x.parent.children = front ++ x.siblings ++ back ∧
    (∀ v ∈ front.getLast?, v.element.endsRuns = true) ∧
    ∀ v ∈ back.head?, v.element.endsRuns = true

variable {x y : Source} {v : Visit}

theorem last_mem_tokens (x : Source) : x.last ∈ x.tokens := getLast_mem _

theorem WellFormed.proseTokens_siblings (h : x.WellFormed) : proseTokens x.siblings = x.tokens := by
  have joints := h.joints
  rw [forall_mem_append, forall_mem_append] at joints
  obtain ⟨⟨lead, gaps⟩, trail⟩ := joints
  obtain ⟨first, others⟩ := forall_mem_cons.1 h.prose
  have rest : proseTokens (x.rest.flatMap fun (gap, v) => gap ++ [v]) = x.rest.map Prod.snd := by
    rw [proseTokens, filter_flatMap, map_eq_flatMap]
    apply flatMap_congr
    intro part hpart
    have joints : ∀ v ∈ part.1, v.element.isJoint = true := fun v hv =>
      gaps v (mem_flatMap.2 ⟨part, hpart, hv⟩)
    have prose := others part.2 (mem_map_of_mem hpart)
    show proseTokens (part.1 ++ [part.2]) = _
    rw [proseTokens_append, proseTokens_joints joints, proseTokens, filter_singleton, prose]
    rfl
  have middle : proseTokens (x.first :: x.rest.flatMap fun (gap, v) => gap ++ [v]) = x.tokens := by
    rw [tokens, ← rest, proseTokens, filter_cons, if_pos first, proseTokens]
  rw [siblings, proseTokens_append, proseTokens_append, middle, proseTokens_joints lead,
    proseTokens_joints trail, nil_append, append_nil]

theorem WellFormed.mem_siblings (h : x.WellFormed) (hv : v ∈ x.tokens) : v ∈ x.siblings := by
  rw [← h.proseTokens_siblings] at hv
  exact mem_of_mem_filter hv

namespace StandsIn

variable {tree : Element}

theorem mem_children (h : x.StandsIn tree) (hv : v ∈ x.tokens) : v ∈ x.parent.children := by
  obtain ⟨front, back, cut, -⟩ := h.maximal
  rw [cut]
  exact mem_append_left _ (mem_append_right _ (h.mem_siblings hv))

theorem ancestors_eq (h : x.StandsIn tree) (hv : v ∈ x.tokens) : v.ancestors = x.run.ancestors :=
  Visit.ancestors_of_mem_siblings (h.mem_children hv)

theorem isLineage (h : x.StandsIn tree) : tree.IsLineage x.run.ancestors :=
  Visit.isLineage_of_mem_visits h.parent

/-- Between two sources of one node stands a child that ends runs. -/
theorem exists_between (hx : x.StandsIn tree) (hy : y.StandsIn tree) (same : x.parent = y.parent)
    (order : ∀ v ∈ x.tokens, ∀ w ∈ y.tokens, v.stop ≤ w.start)
    (long : ∀ v ∈ x.tokens ++ y.tokens, v.start < v.stop) :
    ∃ c ∈ x.parent.children,
      c.element.endsRuns = true ∧ x.last.stop ≤ c.start ∧ c.stop ≤ y.first.start := by
  obtain ⟨front, back, cut, -, ends⟩ := hx.maximal
  have sorted := (Visit.pairwise_siblings x.parent.lineage x.parent.start
    x.parent.element.children).2
  change x.parent.children.Pairwise _ at sorted
  rw [cut, pairwise_append, pairwise_append] at sorted
  obtain ⟨⟨-, -, frontSorted⟩, backSorted, behind⟩ := sorted
  have firstX : x.first ∈ x.tokens := mem_cons_self
  have firstY : y.first ∈ y.tokens := mem_cons_self
  have child := hy.mem_children firstY
  rw [← same, cut] at child
  rcases mem_append.1 child with child | child
  · -- neither in front of the first source nor in it does the second one begin
    exfalso
    have longX := long x.first (mem_append_left _ firstX)
    have longY := long y.first (mem_append_right _ firstY)
    rcases mem_append.1 child with child | child
    · have before := frontSorted _ child _ (hx.mem_siblings firstX)
      have after := order _ firstX _ firstY
      omega
    · have both : y.first ∈ x.tokens := by
        rw [← hx.proseTokens_siblings]
        exact mem_filter.2 ⟨child, hy.prose _ firstY⟩
      have after := order _ both _ firstY
      omega
  · cases back with
    | nil => cases child
    | cons c back =>
      have endsRuns : c.element.endsRuns = true := ends c rfl
      have bound : c ∈ c :: back := mem_cons_self
      refine ⟨c, ?_, endsRuns, ?_, ?_⟩
      · rw [cut]
        exact mem_append_right _ bound
      · have last := hx.mem_siblings x.last_mem_tokens
        exact behind _ (mem_append_right _ last) _ bound
      · rcases mem_cons.1 child with rfl | child
        · have prose := hy.prose _ firstY
          rw [isProseToken_of_endsRuns endsRuns] at prose
          cases prose
        · exact (pairwise_cons.1 backSorted).1 _ child

end StandsIn

/-- The source with another token of prose behind it. -/
def extend (x : Source) (v : Visit) : Source :=
  { x with rest := x.rest ++ [(x.trail, v)], trail := [] }

/-- The source with another joint behind it. -/
def delay (x : Source) (v : Visit) : Source := { x with trail := x.trail ++ [v] }

theorem siblings_extend (x : Source) (v : Visit) : (x.extend v).siblings = x.siblings ++ [v] := by
  simp [siblings, extend]

theorem tokens_extend (x : Source) (v : Visit) : (x.extend v).tokens = x.tokens ++ [v] := by
  simp [tokens, extend]

theorem last_extend (x : Source) (v : Visit) : (x.extend v).last = v := by
  simp only [last, tokens_extend, getLast_concat]

theorem text_extend (x : Source) (v : Visit) : (x.extend v).text =
    x.text ++ (if endsLine x.trail then ['\n'] else []) ++ v.element.prose := by
  simp [text, extend]

theorem siblings_delay (x : Source) (v : Visit) : (x.delay v).siblings = x.siblings ++ [v] := by
  simp [siblings, delay]

theorem WellFormed.extend (h : x.WellFormed) (prose : v.element.isProseToken = true) :
    (x.extend v).WellFormed where
  prose := by
    rw [tokens_extend]
    exact forall_mem_append.2 ⟨h.prose, forall_mem_singleton.2 prose⟩
  joints := by
    have joints := h.joints
    simpa [Source.extend] using joints

theorem WellFormed.delay (h : x.WellFormed) (joint : v.element.isJoint = true) :
    (x.delay v).WellFormed where
  prose := h.prose
  joints := by
    rw [Source.delay, ← append_assoc]
    exact forall_mem_append.2 ⟨h.joints, forall_mem_singleton.2 joint⟩

end Source

/-! ## The search for runs -/

theorem effect_eq (e : Element) :
    effect e =
      if e.isProseToken then .extends e.prose
      else if e.isJoint then if e.kind = .newline then .breaks else .keeps
      else .ends := by
  cases e with
  | token k t => cases k <;> rfl
  | node k es => rfl

/-- What has been passed of the children of `p` since the last one that ends runs, and the run that
is open: nothing but joints, or a source. -/
inductive Opened (p : Visit) : List Visit → Option Open → Prop
  | joints {passed : List Visit} :
      (∀ v ∈ passed, v.element.isJoint = true) → Opened p passed none
  | source (x : Source) : x.parent = p → x.WellFormed →
      Opened p x.siblings (some ⟨x.text, x.first.start, x.last.stop, endsLine x.trail⟩)

/-- Some runs are made of sources in a tree, which together hold some tokens of prose in their
order. -/
def Gathers (tree : Element) (rs : List TextRun) (prose : List Visit) : Prop :=
  ∃ xs : List Source, rs = xs.map Source.run ∧ xs.flatMap Source.tokens = prose ∧
    ∀ x ∈ xs, x.StandsIn tree

theorem Gathers.nil (tree : Element) : Gathers tree [] [] := ⟨[], rfl, rfl, forall_mem_nil _⟩

theorem Gathers.append {tree : Element} {rs rs' : List TextRun} {prose prose' : List Visit}
    (h : Gathers tree rs prose) (h' : Gathers tree rs' prose') :
    Gathers tree (rs ++ rs') (prose ++ prose') := by
  obtain ⟨xs, rfl, rfl, standsIn⟩ := h
  obtain ⟨xs', rfl, rfl, standsIn'⟩ := h'
  exact ⟨xs ++ xs', map_append.symm, flatMap_append, forall_mem_append.2 ⟨standsIn, standsIn'⟩⟩

namespace Opened

variable {tree : Element} {p v : Visit} {passed front back : List Visit} {run? : Option Open}

theorem nil (p : Visit) : Opened p [] none := .joints (forall_mem_nil _)

theorem extend (h : Opened p passed run?) (prose : v.element.isProseToken = true) :
    Opened p (passed ++ [v]) (some (Open.extend run? v.element.prose v.start v.stop)) := by
  cases h with
  | joints joints =>
    have begun := source ⟨p, passed, v, [], []⟩ rfl
      ⟨forall_mem_singleton.2 prose, by simpa using joints⟩
    simpa [Source.siblings, Source.text, Source.last, Source.tokens, Open.extend, endsLine]
      using begun
  | source x parent wellFormed =>
    have longer := source (x.extend v) parent (wellFormed.extend prose)
    rwa [x.siblings_extend, x.text_extend, x.last_extend] at longer

theorem breaks (h : Opened p passed run?) (joint : v.element.isJoint = true)
    (lineEnd : v.element.kind = .newline) :
    Opened p (passed ++ [v]) (run?.map fun run => { run with broken := true }) := by
  cases h with
  | joints joints => exact .joints (forall_mem_append.2 ⟨joints, forall_mem_singleton.2 joint⟩)
  | source x parent wellFormed =>
    have longer := source (x.delay v) parent (wellFormed.delay joint)
    have broken : endsLine (x.delay v).trail = true := by
      simp [endsLine, Source.delay, lineEnd]
    rwa [x.siblings_delay, broken] at longer

theorem keeps (h : Opened p passed run?) (joint : v.element.isJoint = true)
    (inLine : v.element.kind ≠ .newline) : Opened p (passed ++ [v]) run? := by
  cases h with
  | joints joints => exact .joints (forall_mem_append.2 ⟨joints, forall_mem_singleton.2 joint⟩)
  | source x parent wellFormed =>
    have longer := source (x.delay v) parent (wellFormed.delay joint)
    have broken : endsLine (x.delay v).trail = endsLine x.trail := by
      simp [endsLine, Source.delay, inLine]
    rwa [x.siblings_delay, broken] at longer

/-- A child that does not end runs is passed, and the search goes on behind it. -/
theorem next {e : Element} {above : List Element} {start : Nat} (h : Opened p passed run?)
    (goesOn : e.endsRuns = false) :
    ∃ run'?, Opened p (passed ++ [⟨above, start, e⟩]) run'? ∧
      ∀ es, runsFromAll above start run? (e :: es) =
        runsFromAll above (start + e.byteLength) run'? es := by
  cases prose : e.isProseToken with
  | true =>
    refine ⟨_, h.extend prose, fun es => ?_⟩
    rw [runsFromAll, effect_eq, if_pos prose]
    rfl
  | false =>
    have joint : e.isJoint = true := by
      rcases endsRuns_eq_false_iff.1 goesOn with prose' | joint
      · rw [prose] at prose'
        cases prose'
      · exact joint
    by_cases lineEnd : e.kind = .newline
    · refine ⟨_, h.breaks joint lineEnd, fun es => ?_⟩
      rw [runsFromAll, effect_eq, prose, joint, lineEnd]
      rfl
    · refine ⟨_, h.keeps joint lineEnd, fun es => ?_⟩
      rw [runsFromAll, effect_eq, prose, joint, if_neg lineEnd]
      rfl

/-- Where a section ends, the run that is open is made of a source. -/
theorem finish (h : Opened p passed run?) (parent : p ∈ tree.visits)
    (cut : p.children = front ++ passed ++ back)
    (begins : ∀ v ∈ front.getLast?, v.element.endsRuns = true)
    (ends : ∀ v ∈ back.head?, v.element.endsRuns = true) :
    Gathers tree (Open.finish p.lineage run?) (proseTokens passed) := by
  cases h with
  | joints joints =>
    rw [proseTokens_joints joints]
    exact .nil tree
  | source x same wellFormed =>
    subst same
    have standsIn : x.StandsIn tree := ⟨wellFormed, parent, front, back, cut, begins, ends⟩
    refine ⟨[x], rfl, ?_, forall_mem_singleton.2 standsIn⟩
    rw [wellFormed.proseTokens_siblings, flatMap_singleton]

end Opened

section Children

variable {tree : Element} {p : Visit} {front passed : List Visit} {run? : Option Open} {start : Nat}
variable {e : Element} {es : List Element}

/-- A child that ends runs parts what has been passed from what is inside of it, and both from the
children behind it. -/
theorem gathers_cons_of_endsRuns (opened : Opened p passed run?) (parent : p ∈ tree.visits)
    (cut : p.children = front ++ passed ++ Visit.siblings p.lineage start (e :: es))
    (begins : ∀ v ∈ front.getLast?, v.element.endsRuns = true) (ends : e.endsRuns = true)
    (inner : Gathers tree (runsFrom p.lineage start e)
      (proseTokens (visitsFrom p.lineage start e)))
    (others : ∀ front',
      p.children = front' ++ [] ++ Visit.siblings p.lineage (start + e.byteLength) es →
      (∀ v ∈ front'.getLast?, v.element.endsRuns = true) →
      Gathers tree (runsFromAll p.lineage (start + e.byteLength) none es)
        (proseTokens [] ++ proseTokens (visitsFromAll p.lineage (start + e.byteLength) es))) :
    Gathers tree (runsFromAll p.lineage start run? (e :: es))
      (proseTokens passed ++ proseTokens (visitsFromAll p.lineage start (e :: es))) := by
  have effect : effect e = .ends := by
    rw [endsRuns, Bool.and_eq_true, Bool.not_eq_true', Bool.not_eq_true'] at ends
    rw [effect_eq, ends.1, ends.2]
    rfl
  have finished := opened.finish parent cut begins (by
    rintro v ⟨⟩
    exact ends)
  have behind := others (front ++ passed ++ [⟨p.lineage, start, e⟩])
    (by rw [cut, Visit.siblings, append_nil, append_assoc _ [_], singleton_append]) (by
    intro v hv
    rw [getLast?_concat] at hv
    cases hv
    exact ends)
  rw [runsFromAll, effect, visitsFromAll, proseTokens_append, ← append_assoc]
  exact (finished.append inner).append behind

/-- The runs among the children of `p` and inside of them. The induction goes along the children
with what has been passed since the last one that ends runs. -/
theorem gathers_runsFromAll (opened : Opened p passed run?) (parent : p ∈ tree.visits)
    (cut : p.children = front ++ passed ++ Visit.siblings p.lineage start es)
    (begins : ∀ v ∈ front.getLast?, v.element.endsRuns = true)
    (below : ∀ v ∈ visitsFromAll p.lineage start es, v ∈ tree.visits) :
    Gathers tree (runsFromAll p.lineage start run? es)
      (proseTokens passed ++ proseTokens (visitsFromAll p.lineage start es)) := by
  induction es using forest_induction generalizing p front passed run? start with
  | nil =>
    have ends : ∀ v ∈ ([] : List Visit).head?, v.element.endsRuns = true := fun v hv => by cases hv
    rw [visitsFromAll, ← proseTokens_append, append_nil]
    exact opened.finish parent cut begins ends
  | token k t es ih =>
    have below' := (forall_mem_append.1 below).2
    cases ends : (Element.token k t).endsRuns with
    | true =>
      refine gathers_cons_of_endsRuns opened parent cut begins ends ?_ fun front' cut' begins' =>
        ih (.nil p) parent cut' begins' below'
      rw [runsFrom, visitsFrom, proseTokens, filter_singleton, isProseToken_of_endsRuns ends]
      exact .nil tree
    | false =>
      obtain ⟨run'?, opened', step⟩ := opened.next ends
      rw [step, visitsFromAll, visitsFrom, proseTokens_append, ← append_assoc, ← proseTokens_append]
      refine ih opened' parent ?_ begins below'
      simp only [cut, Visit.siblings, append_assoc, singleton_append]
  | node k inside es ihInside ih =>
    obtain ⟨here, below'⟩ := forall_mem_append.1 below
    obtain ⟨self, belowInside⟩ := forall_mem_cons.1 here
    refine gathers_cons_of_endsRuns opened parent cut begins rfl ?_ fun front' cut' begins' =>
      ih (.nil p) parent cut' begins' below'
    -- the children of this node stand in a section of their own
    have whole : (Visit.mk p.lineage start (.node k inside)).children =
        [] ++ [] ++ Visit.siblings (p.lineage ++ [.node k inside]) start inside := rfl
    exact ihInside (.nil _) self whole (fun v hv => by cases hv) belowInside

end Children

/-- The runs of a tree gather all tokens of prose in it. -/
theorem gathers_textRuns {tree : Element} (node : tree.isNode = true) :
    Gathers tree tree.textRuns (proseTokens tree.visits) := by
  cases tree with
  | token k t => cases node
  | node k es =>
    have root : ⟨[], 0, .node k es⟩ ∈ (Element.node k es).visits := mem_cons_self
    have whole : (Visit.mk [] 0 (.node k es)).children =
        [] ++ [] ++ Visit.siblings [.node k es] 0 es := rfl
    exact gathers_runsFromAll (.nil _) root whole (fun v hv => by cases hv) fun v hv =>
      mem_cons_of_mem _ hv

end TextRun

/-! ## Runs of documents -/

namespace Document

variable {t : Text} {tree : Element}

/-- No token of prose in a document is empty. -/
theorem start_lt_stop_of_mem_proseTokens (h : parse t = .ok tree) :
    ∀ v ∈ proseTokens tree.visits, v.start < v.stop := by
  obtain ⟨es, hes, rfl⟩ := parse_eq_ok_iff.1 h
  have sound : ∀ e ∈ [Document.tree es], Every Sound e := by
    refine forall_mem_singleton.2 (.node trivial (forall_mem_singleton.2 (.node trivial ?_)))
    exact sound_of_elements hes
  intro v hv
  obtain ⟨mem, prose⟩ := mem_filter.1 hv
  have here : v ∈ visitsFromAll [] 0 [Document.tree es] := mem_append_left _ mem
  have sound := (every_of_mem_visitsFromAll sound here).self
  have ne : v.element.text ≠ [] := by
    cases element : v.element with
    | token k t =>
      rw [element] at prose sound
      exact sound prose
    | node k es =>
      rw [element] at prose
      cases prose
  have := Text.byteLength_pos ne
  rw [Visit.stop, byteLength_eq]
  omega

/-- **Text runs.** The runs of a document are made of sources that hold all tokens of prose once and
in their order. Each source is a section of the children of one node, up to children that end runs,
and what stands above the run leads from the root down to that node. The runs are not empty and
stand one behind the other; a child that ends runs stands between two runs of one node. -/
theorem textRuns_sources (h : parse t = .ok tree) :
    ∃ xs : List TextRun.Source, tree.textRuns = xs.map TextRun.Source.run ∧
      xs.flatMap TextRun.Source.tokens = tree.visits.filter (·.element.isProseToken) ∧
      (∀ x ∈ xs, x.StandsIn tree ∧ tree.IsLineage x.run.ancestors ∧
        (∀ v ∈ x.tokens, v.ancestors = x.run.ancestors) ∧ x.run.start < x.run.stop) ∧
      xs.Pairwise fun x y => x.run.stop ≤ y.run.start ∧
        (x.parent = y.parent → ∃ c ∈ x.parent.children,
          c.element.endsRuns = true ∧ x.run.stop ≤ c.start ∧ c.stop ≤ y.run.start) := by
  obtain ⟨es, hes, eq⟩ := parse_eq_ok_iff.1 h
  have node : tree.isNode = true := by
    rw [eq]
    rfl
  obtain ⟨xs, runs, tokens, standsIn⟩ := TextRun.gathers_textRuns node
  have long := start_lt_stop_of_mem_proseTokens h
  rw [← tokens] at long
  have sorted := tree.pairwise_proseTokens
  rw [← tokens, pairwise_flatMap] at sorted
  have inOrder := inOrder_textRuns hes
  rw [← eq, runs] at inOrder
  refine ⟨xs, runs, tokens, fun x hx => ?_, sorted.2.imp_of_mem fun {x y} hx hy order => ?_⟩
  · refine ⟨standsIn x hx, (standsIn x hx).isLineage, fun v => (standsIn x hx).ancestors_eq, ?_⟩
    exact (inOrder.stretch _ (mem_map_of_mem hx)).lt
  · have first : y.first ∈ y.tokens := mem_cons_self
    refine ⟨order _ x.last_mem_tokens _ first, fun same => ?_⟩
    refine (standsIn x hx).exists_between (standsIn y hy) same order fun v hv => long v ?_
    rcases mem_append.1 hv with hv | hv
    · exact mem_flatMap.2 ⟨x, hx, hv⟩
    · exact mem_flatMap.2 ⟨y, hy, hv⟩

/-- A paragraph in a quote: a run over two lines with an escape in it, code, and a run behind it. -/
theorem textRuns_sources_quoted_code :
    let t := "> a \\*\n> b `c` d".toList
    ∃ (tree : Element) (xs : List TextRun.Source), parse t = .ok tree ∧
      tree.textRuns = xs.map TextRun.Source.run ∧
      xs.flatMap TextRun.Source.tokens = tree.visits.filter (·.element.isProseToken) ∧
      (∀ x ∈ xs, x.StandsIn tree) ∧
      (xs.map fun x => (x.text, x.first.start, x.last.stop)) =
        [("a *\nb ".toList, 2, 11), (['c'], 12, 13), (" d".toList, 14, 16)] := by
  intro t
  have found : ((parse t).toOption.map fun tree =>
      tree.textRuns.map fun r => (r.text, r.start, r.stop)) =
      some [("a *\nb ".toList, 2, 11), (['c'], 12, 13), (" d".toList, 14, 16)] := by
    decide +kernel
  cases parsed : parse t with
  | error e =>
    rw [parsed] at found
    cases found
  | ok tree =>
    obtain ⟨xs, runs, tokens, each, -⟩ := textRuns_sources parsed
    rw [parsed] at found
    have found := Option.some.inj found
    dsimp only at found
    rw [runs, map_map] at found
    exact ⟨tree, xs, rfl, runs, tokens, fun x hx => (each x hx).1, found⟩

end Document

end TierLint
