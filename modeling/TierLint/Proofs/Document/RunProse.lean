import TierLint.Proofs.Block.Joined
import TierLint.Proofs.Document.Origin
import TierLint.Proofs.Document.Runs
import TierLint.Proofs.Syntax.Prose
import TierLint.Proofs.Syntax.ProseBetween
import TierLint.Proofs.Text.Rebroken

/-!
# Text runs and the prose of their paragraphs

The tokens of a text run are a section of the tokens of the tree (`TextRun.Source.core`). Prose and
run text treat them alike, apart from the line ends between them: a run has one line feed where the
prose has every line end as it is. In a paragraph no line is blank, so no two line ends follow each
other (`Document.breaksOnce_of_mem_nodesOf`). So a run inside a paragraph is a part of the prose of
the paragraph, with other line breaks at most (`Document.prose_of_run`).
-/

set_option autoImplicit false

namespace TierLint

open Element List

/-! ## Lines that end once -/

/-- Between two line ends stands a token that is no joint; `broken` tells that a line has ended
since the last such token. Lines end with a line feed, perhaps behind a carriage return. -/
def BreaksOnce : (broken : Bool) → List (Kind × Text) → Prop
  | _, [] => True
  | broken, (k, t) :: ts =>
    if k = .newline then
      broken = false ∧ (t = ['\n'] ∨ t = ['\r', '\n']) ∧ BreaksOnce true ts
    else BreaksOnce (broken && k.isFiller) ts

namespace BreaksOnce

variable {broken : Bool} {ts us : List (Kind × Text)}

/-- Where a line may end, anything else may stand too. -/
theorem weaken (h : BreaksOnce true ts) : BreaksOnce broken ts := by
  induction ts generalizing broken with
  | nil => trivial
  | cons x ts ih =>
    rw [BreaksOnce] at *
    split at h
    · cases h.1
    · rename_i other
      rw [if_neg other]
      cases filler : x.1.isFiller with
      | true => exact ih (filler ▸ h)
      | false =>
        rw [Bool.and_false]
        rwa [filler] at h

theorem of_append_left (h : BreaksOnce broken (us ++ ts)) : BreaksOnce broken us := by
  induction us generalizing broken with
  | nil => trivial
  | cons x us ih =>
    rw [cons_append, BreaksOnce] at h
    rw [BreaksOnce]
    split at h
    · rename_i lineEnd
      rw [if_pos lineEnd]
      exact ⟨h.1, h.2.1, ih h.2.2⟩
    · rename_i other
      rw [if_neg other]
      exact ih h

theorem of_append_right (h : BreaksOnce broken (us ++ ts)) : ∃ b, BreaksOnce b ts := by
  induction us generalizing broken with
  | nil => exact ⟨broken, h⟩
  | cons x us ih =>
    rw [cons_append, BreaksOnce] at h
    split at h
    · exact ih h.2.2
    · exact ih h

theorem of_isInfix (h : BreaksOnce broken ts) (inside : us <:+: ts) : ∃ b, BreaksOnce b us := by
  obtain ⟨front, back, rfl⟩ := inside
  rw [append_assoc] at h
  obtain ⟨b, h⟩ := h.of_append_right
  exact ⟨b, h.of_append_left⟩

/-- Tokens that are no line ends may stand anywhere; behind them a line may end, unless they are
joints all of them. -/
theorem append_iff {t : Text} (h : Spells us t) :
    BreaksOnce broken (us ++ ts) ↔ BreaksOnce (broken && us.all (·.1.isFiller)) ts := by
  have inside := h.inside
  clear h
  induction us generalizing broken with
  | nil => rw [nil_append, all_nil, Bool.and_true]
  | cons x us ih =>
    obtain ⟨other, inside⟩ := forall_mem_cons.1 inside
    rw [cons_append, BreaksOnce, if_neg other, all_cons, ← Bool.and_assoc]
    exact ih inside

end BreaksOnce

/-! ## Paragraphs -/

/-- Running text begins with a token that is no joint. -/
theorem Inline.exists_solid {t : Text} (ne : t ≠ []) :
    ∃ x ∈ tokensOf (elements t), x.1.isFiller = false := by
  have text (u : Text) (es : List Element) :
      ∃ x ∈ tokensOf (consText u es), x.1.isFiller = false := by
    unfold consText
    split <;> exact ⟨_, mem_cons_self, rfl⟩
  obtain ⟨c, rest, rfl⟩ := exists_cons_of_ne_nil ne
  rw [elements, elementsBehind]
  split
  · rename_i m after read
    rw [tokensOf_cons]
    suffices first : ∃ x ∈ (m.element (elementsBehind none m.inner)).tokens,
        x.1.isFiller = false from
      first.imp fun x hx => ⟨mem_append_left _ hx.1, hx.2⟩
    cases m with
    | emphasis e =>
      refine ⟨_, mem_cons_self, ?_⟩
      dsimp only
      split <;> rfl
    | _ => exact ⟨_, mem_cons_self, rfl⟩
  · exact text _ _

namespace Paragraph

variable {l : Line} {ls : List Line} {ts : List (Kind × Text)} {broken : Bool}

/-- A line of running text is spelled by tokens that are not all joints, if it is not blank. -/
theorem exists_tokensOf_lineElements (filled : l.isBlank = false) :
    ∃ us, tokensOf (lineElements l) = us ++ l.ending.tokens ∧ Spells us l.body ∧
      us.all (·.1.isFiller) = false := by
  have ne : Text.unindented l.content ≠ [] := by
    intro none
    have blank : Text.trimStart l.content = [] := by
      rw [← Text.trimStart_unindented, none]
      rfl
    rw [Line.isBlank, Text.isBlank, all_eq_true.2 (dropWhile_eq_nil_iff.1 blank)] at filled
    cases filled
  obtain ⟨x, hx, solid⟩ := Inline.exists_solid ne
  have content := (Spells.spacing (Text.indentation l.content)).append
    (Inline.spells_elements (Text.unindented l.content))
  rw [Text.indentation_append_unindented] at content
  refine ⟨_, ?_, l.spells_pendingElements.append content, ?_⟩
  · rw [lineElements, Line.elementsWith, tokensOf_append, tokensOf_append, tokensOf_append,
      Line.tokensOf_endingElements]
  · exact all_eq_false.2 ⟨x, mem_append_right _ (mem_append_right _ hx), by simp [solid]⟩

/-- Behind a line that is not blank another one may end. -/
theorem breaksOnce_lineElements (filled : l.isBlank = false) (behind : BreaksOnce true ts) :
    BreaksOnce broken (tokensOf (lineElements l) ++ ts) := by
  obtain ⟨us, tokens, spelled, solid⟩ := exists_tokensOf_lineElements filled
  rw [tokens, append_assoc, BreaksOnce.append_iff spelled, solid, Bool.and_false]
  cases l.ending with
  | none => exact behind.weaken
  | lf => exact ⟨rfl, .inl rfl, behind⟩
  | crlf => exact ⟨rfl, .inr rfl, behind⟩

theorem breaksOnce_flatMap_lineElements (filled : ∀ l ∈ ls, l.isBlank = false) :
    BreaksOnce broken (tokensOf (ls.flatMap lineElements)) := by
  induction ls generalizing broken with
  | nil => trivial
  | cons l ls ih =>
    obtain ⟨first, others⟩ := forall_mem_cons.1 filled
    rw [flatMap_cons, tokensOf_append]
    exact breaksOnce_lineElements first (ih others)

end Paragraph

/-- In a paragraph no two line ends follow each other. -/
theorem Document.breaksOnce_of_mem_nodesOf {t : Text} {tree : Element} {v : Visit}
    (h : parse t = .ok tree) (hv : v ∈ tree.nodesOf .paragraph) :
    BreaksOnce false v.element.tokens := by
  obtain ⟨l, ls, -, kind, ok⟩ := exists_block_of_mem_nodesOf h hv (by decide)
  obtain ⟨opens, noTable, plain⟩ := Block.kind_eq_paragraph_iff.1 kind
  have next := congrArg Prod.fst (Block.next_of_text opens noTable)
  rw [next] at ok
  obtain ⟨inner, -, he⟩ := Block.tree_eq_ok_iff.1 ok
  have same : (Paragraph.begin l ls).1.element = v.element := Except.ok.inj he
  rw [← same, Paragraph.element, plain, tokens_node]
  exact Paragraph.breaksOnce_flatMap_lineElements (Block.not_isBlank_of_paragraph next)

/-! ## Sources -/

theorem Element.isNode_eq_false_of_not_endsRuns {e : Element} (h : e.endsRuns = false) :
    e.isNode = false := by
  cases e with
  | token k t => rfl
  | node k es => cases h

namespace Visit

/-- The visits of elements side by side, each with what lies inside of it. -/
theorem flatMap_inside_siblings (above : List Element) (start : Nat) (es : List Element) :
    (siblings above start es).flatMap inside = visitsFromAll above start es := by
  induction es generalizing start with
  | nil => rfl
  | cons e es ih => rw [siblings, flatMap_cons, ih, visitsFromAll, inside]

theorem flatMap_inside_children (v : Visit) : v.children.flatMap inside <:+: v.inside := by
  rw [children, flatMap_inside_siblings]
  obtain ⟨above, start, e⟩ := v
  cases e with
  | token k t => exact nil_infix
  | node k es => exact (suffix_cons _ _).isInfix

/-- Nothing lies inside of tokens. -/
theorem flatMap_inside_tokens {vs : List Visit} (h : ∀ v ∈ vs, v.element.isNode = false) :
    vs.flatMap inside = vs := by
  induction vs with
  | nil => rfl
  | cons v vs ih =>
    obtain ⟨first, others⟩ := forall_mem_cons.1 h
    obtain ⟨above, start, e⟩ := v
    cases e with
    | token k t => rw [flatMap_cons, ih others]; rfl
    | node k es => cases first

end Visit

namespace TextRun.Source

variable {x : Source} {tree : Element} {v : Visit}

/-- The section from the first token of prose to the last. -/
def core (x : Source) : List Visit := x.first :: x.rest.flatMap fun (gap, v) => gap ++ [v]

theorem core_isInfix (x : Source) : x.core <:+: x.siblings := infix_append x.lead x.core x.trail

theorem getLast?_core (x : Source) : x.core.getLast? = some x.last := by
  rcases eq : x.rest.eq_nil_or_concat' with none | ⟨rest, ⟨gap, v⟩, some⟩
  · simp [core, last, tokens, none]
  · simp [core, last, tokens, some, getLast?_cons]

theorem WellFormed.isNode_eq_false (h : x.WellFormed) : ∀ v ∈ x.core, v.element.isNode = false := by
  intro v hv
  refine isNode_eq_false_of_not_endsRuns (endsRuns_eq_false_iff.2 ?_)
  rcases mem_cons.1 hv with rfl | hv
  · exact .inl (h.prose _ mem_cons_self)
  · obtain ⟨⟨gap, w⟩, part, hv⟩ := mem_flatMap.1 hv
    rcases mem_append.1 hv with hv | hv
    · have joint : v ∈ x.rest.flatMap Prod.fst := mem_flatMap.2 ⟨(gap, w), part, hv⟩
      exact .inr (h.joints v (mem_append_left _ (mem_append_right _ joint)))
    · obtain rfl := mem_singleton.1 hv
      exact .inl (h.prose _ (mem_cons_of_mem _ (mem_map_of_mem part)))

/-- The section is one of the tokens of the tree. -/
theorem StandsIn.core_isInfix (h : x.StandsIn tree) : x.core <:+: tree.tokenVisits := by
  obtain ⟨front, back, cut, -⟩ := h.maximal
  have tokens := h.isNode_eq_false
  have children : x.core <:+: x.parent.children := x.core_isInfix.trans ⟨front, back, cut.symm⟩
  have inside := children.flatMap Visit.inside
  rw [Visit.flatMap_inside_tokens tokens] at inside
  have visited :=
    (inside.trans x.parent.flatMap_inside_children).trans (Visit.inside_isInfix h.parent)
  have all : x.core.filter (!·.element.isNode) = x.core :=
    filter_eq_self.2 fun v hv => by rw [tokens v hv]; rfl
  exact all ▸ visited.filter (!·.element.isNode)

/-- A gap in which a line ends at most once: its prose is that line end. -/
theorem rebroken_gap {gap : List Visit} {ts : List (Kind × Text)} {broken : Bool}
    (joints : ∀ v ∈ gap, v.element.isJoint = true)
    (once : BreaksOnce broken (gap.map Visit.token ++ ts)) :
    Rebroken true false (if endsLine gap then ['\n'] else []) (proseOfVisits gap) ∧
      (broken = true → endsLine gap = false) ∧ ∃ b, BreaksOnce b ts := by
  induction gap generalizing broken with
  | nil => exact ⟨.nil, fun _ => rfl, broken, once⟩
  | cons v gap ih =>
    obtain ⟨first, others⟩ := forall_mem_cons.1 joints
    obtain ⟨above, start, e⟩ := v
    cases e with
    | node k es => cases first
    | token k t =>
      rw [map_cons, cons_append, Visit.token, BreaksOnce] at once
      by_cases lineEnd : k = .newline
      · -- the line ends here, so it ends nowhere in the rest of the gap
        subst lineEnd
        obtain ⟨rfl, form, once⟩ := once
        obtain ⟨same, none, onward⟩ := ih others once
        rw [none rfl] at same
        have nothing : [] = proseOfVisits gap := same.eq_of_lf_not_mem not_mem_nil
        refine ⟨?_, nofun, onward⟩
        rw [proseOfVisits_cons, ← nothing, append_nil]
        rcases form with rfl | rfl
        · exact .refl _
        · exact .crlf rfl .nil
      · -- any other joint is silent, and leaves open whether the line ends in the rest
        have filler : (k == .newline || k.isFiller) = true := first
        rw [beq_false_of_ne lineEnd, Bool.false_or] at filler
        rw [Element.kind, if_neg lineEnd, filler, Bool.and_true] at once
        obtain ⟨same, none, onward⟩ := ih others once
        have silent : endsLine (⟨above, start, .token k t⟩ :: gap) = endsLine gap := by
          rw [endsLine, any_cons, Element.kind, beq_false_of_ne lineEnd, Bool.false_or, ← endsLine]
        rw [silent, proseOfVisits_cons, prose_of_isFiller filler, nil_append]
        exact ⟨same, none, onward⟩

/-- The same of the further tokens of prose, each with the gap in front of it. -/
theorem rebroken_rest {rest : List (List Visit × Visit)} {broken : Bool}
    (joints : ∀ v ∈ rest.flatMap Prod.fst, v.element.isJoint = true)
    (once : BreaksOnce broken ((rest.flatMap fun (gap, v) => gap ++ [v]).map Visit.token)) :
    Rebroken true false
      (rest.flatMap fun (gap, v) => (if endsLine gap then ['\n'] else []) ++ v.element.prose)
      (proseOfVisits (rest.flatMap fun (gap, v) => gap ++ [v])) := by
  induction rest generalizing broken with
  | nil => exact .nil
  | cons part rest ih =>
    obtain ⟨gap, v⟩ := part
    rw [flatMap_cons, forall_mem_append] at joints
    rw [flatMap_cons, map_append, map_append, append_assoc] at once
    obtain ⟨inGap, -, b, onward⟩ := rebroken_gap joints.1 once
    obtain ⟨b, onward⟩ := onward.of_append_right
    rw [flatMap_cons, flatMap_cons, proseOfVisits_append, proseOfVisits_append, proseOfVisits_cons,
      proseOfVisits_nil, append_nil]
    exact .append (.append inGap (.refl _)) (ih joints.2 onward)

/-- The text of the run is the prose of the section, with each line end made a line feed. -/
theorem WellFormed.rebroken (h : x.WellFormed) {broken : Bool}
    (once : BreaksOnce broken (x.core.map Visit.token)) :
    Rebroken true false x.text (proseOfVisits x.core) := by
  have joints : ∀ v ∈ x.rest.flatMap Prod.fst, v.element.isJoint = true := fun v hv =>
    h.joints v (mem_append_left _ (mem_append_right _ hv))
  obtain ⟨b, once⟩ := once.of_isInfix (suffix_cons _ _).isInfix
  rw [text, core, proseOfVisits_cons]
  exact .append (.refl _) (rebroken_rest joints once)

end TextRun.Source

/-! ## Runs inside a paragraph -/

/-- A run inside a paragraph is a part of the prose of the paragraph, with each line end made a line
feed. -/
theorem Document.prose_of_run {t : Text} {tree : Element} {r : TextRun} {v : Visit}
    (h : parse t = .ok tree) (hr : r ∈ tree.textRuns) (hv : v ∈ tree.nodesOf .paragraph)
    (begins : v.start ≤ r.start) (ends : r.stop ≤ v.stop) :
    v.element.prose = tree.proseBetween v.start r.start ++ tree.proseBetween r.start r.stop ++
        tree.proseBetween r.stop v.stop ∧
      Rebroken true false r.text (tree.proseBetween r.start r.stop) := by
  obtain ⟨es, hes, eq⟩ := parse_eq_ok_iff.1 h
  have node : tree.isNode = true := by
    rw [eq]
    rfl
  obtain ⟨xs, runs, gathered, standsIn⟩ := TextRun.gathers_textRuns node
  rw [runs] at hr
  obtain ⟨x, hx, rfl⟩ := mem_map.1 hr
  have stands := standsIn x hx
  -- no token is empty, so the first and the last of the run fix the bytes of the section
  have long : ∀ w ∈ x.tokens, w.start < w.stop := fun w hw =>
    start_lt_stop_of_mem_proseTokens h w (gathered ▸ mem_flatMap.2 ⟨x, hx, hw⟩)
  have filled : v.start < v.stop := (isStretch_of_mem_nodesOf hes rfl v (eq ▸ hv)).lt
  obtain ⟨inside, whole, prose⟩ := Visit.prose_eq_append (kind_of_mem_nodesOf hv).1 filled
    stands.core_isInfix rfl x.getLast?_core (long _ mem_cons_self) (long _ x.last_mem_tokens)
    begins ends
  have once := inside.map Visit.token
  rw [v.map_tokens] at once
  obtain ⟨b, once⟩ := (breaksOnce_of_mem_nodesOf h hv).of_isInfix once
  have spelled := stands.rebroken once
  rw [whole] at prose spelled
  exact ⟨prose, spelled⟩

end TierLint
