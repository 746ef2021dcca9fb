import TierLint.Proofs.InStep
import TierLint.Proofs.Syntax.Token

/-!
# Trees that differ in line prefixes and line ends only

Two sequences of elements are alike if they have the same nodes around the same tokens, apart from
what a `Slack` gives free: white space and quote markers that only one of them has, line feeds of
one that are carriage return and line feed in the other, and a line end at the very end that the
first one lacks (`Alike`). The relation is closed under putting sequences one behind the other
(`Alike.append`) and around each other, so it is shown block by block.

Where line ends are not free, alike sequences are one sequence once all tokens that are free are
deleted (`Alike.withoutOf_eq`): white space alone, or quote markers as well.
-/

set_option autoImplicit false

namespace TierLint

/-- What lines carry in front of their content: white space and quote markers. -/
def Kind.isFiller : Kind → Bool
  | .whitespace | .blockQuoteMarker => true
  | _ => false

/-- What two trees may differ in. -/
structure Slack where
  /-- White space in front of lines, and quote markers if these may differ as well. -/
  fillers : Bool
  markers : Bool
  /-- The form of line ends. -/
  lineEnds : Bool

namespace Slack

/-- White space and quote markers may differ, and nothing else. -/
def fillersOnly : Slack := ⟨true, true, false⟩

/-- White space may differ, and nothing else. -/
def spacesOnly : Slack := ⟨true, false, false⟩

/-- Line ends may differ, and nothing else. -/
def lineEndsOnly : Slack := ⟨false, false, true⟩

/-- Nothing may differ. -/
def strict : Slack := ⟨false, false, false⟩

/-- The fillers that may differ, if fillers may. -/
def frees (w : Slack) : Kind → Bool
  | .whitespace => true
  | .blockQuoteMarker => w.markers
  | _ => false

theorem isFiller_of_frees {w : Slack} {k : Kind} (h : w.frees k = true) : k.isFiller = true := by
  cases k <;> first | rfl | cases h

theorem frees_of_markers {w : Slack} {k : Kind} (h : w.markers = true) (hk : k.isFiller = true) :
    w.frees k = true := by
  cases k <;> first | rfl | exact h | cases hk

end Slack

/-- The same nodes around the same tokens, apart from what the slack gives free; `last` tells that
the sequences end a document. -/
inductive Alike (w : Slack) : Bool → List Element → List Element → Prop
  | nil {last : Bool} : Alike w last [] []
  | token {last : Bool} {k : Kind} {t : Text} {es fs : List Element} :
      Alike w last es fs → Alike w last (.token k t :: es) (.token k t :: fs)
  | node {last : Bool} {k : Kind} {inside inside' es fs : List Element} :
      Alike w (last && es.isEmpty && fs.isEmpty) inside inside' → Alike w last es fs →
      Alike w last (.node k inside :: es) (.node k inside' :: fs)
  | filler {last : Bool} {k : Kind} {t : Text} {es fs : List Element} :
      w.fillers = true → w.frees k = true → '\n' ∉ t → Alike w last es fs →
      Alike w last (.token k t :: es) fs
  | filler' {last : Bool} {k : Kind} {t : Text} {es fs : List Element} :
      w.fillers = true → w.frees k = true → '\n' ∉ t → Alike w last es fs →
      Alike w last es (.token k t :: fs)
  | lineEnd {last : Bool} {es fs : List Element} :
      w.lineEnds = true → Alike w last es fs →
      Alike w last (.token .newline ['\n'] :: es) (.token .newline ['\r', '\n'] :: fs)
  | finalEnd : w.lineEnds = true → Alike w true [] [.token .newline ['\n']]

namespace Alike

variable {w : Slack} {last : Bool} {es fs es' fs' : List Element}

mutual

theorem refl_cons (w : Slack) (last : Bool) : (e : Element) → {es fs : List Element} →
    Alike w last es fs → Alike w last (e :: es) (e :: fs)
  | .token _ _, _, _, h => .token h
  | .node _ inside, _, _, h => .node (refl w _ inside) h

/-- A sequence is like itself. -/
theorem refl (w : Slack) (last : Bool) : (es : List Element) → Alike w last es es
  | [] => .nil
  | e :: es => refl_cons w last e (refl w last es)

end

/-- A node ends both sequences, or what is inside of it does not end the document. -/
theorem ends_or (last : Bool) (es fs : List Element) :
    es = [] ∧ fs = [] ∨ (last && es.isEmpty && fs.isEmpty) = false := by
  cases es <;> cases fs <;> simp

/-- Sequences that are alike inside a document are alike at its end. -/
theorem weaken (h : Alike w false es fs) : Alike w last es fs := by
  generalize hl : false = l at h
  induction h generalizing last with
  | nil => exact .nil
  | token _ ih => exact .token (ih hl)
  | node _ _ ihInside ih =>
    subst hl
    exact .node (ihInside rfl) (ih rfl)
  | filler free hk ht _ ih => exact .filler free hk ht (ih hl)
  | filler' free hk ht _ ih => exact .filler' free hk ht (ih hl)
  | lineEnd free _ ih => exact .lineEnd free (ih hl)
  | finalEnd => cases hl

/-- Sequences one behind the other. Only if nothing follows may the first part lack a line end. -/
theorem append (h : Alike w (last && es'.isEmpty && fs'.isEmpty) es fs)
    (h' : Alike w last es' fs') : Alike w last (es ++ es') (fs ++ fs') := by
  generalize hl : (last && es'.isEmpty && fs'.isEmpty) = l at h
  induction h with
  | nil => exact h'
  | token _ ih => exact .token (ih hl)
  | @node l k inside inside' es fs first _ _ ih =>
    refine .node ?_ (ih hl)
    have flag : (last && (es ++ es').isEmpty && (fs ++ fs').isEmpty) =
        (l && es.isEmpty && fs.isEmpty) := by
      rw [← hl, ← InStep.isEmpty_of_append (rfl : es ++ es' = _),
        ← InStep.isEmpty_of_append (rfl : fs ++ fs' = _)]
      ac_rfl
    rwa [List.append_eq, List.append_eq, flag]
  | filler free hk ht _ ih => exact .filler free hk ht (ih hl)
  | filler' free hk ht _ ih => exact .filler' free hk ht (ih hl)
  | lineEnd free _ ih => exact .lineEnd free (ih hl)
  | finalEnd free =>
    -- nothing follows a line end that one side lacks
    obtain ⟨⟨rfl, he⟩, hf⟩ : (last = true ∧ es'.isEmpty = true) ∧ fs'.isEmpty = true := by
      simpa using hl
    rw [List.isEmpty_iff.1 he, List.isEmpty_iff.1 hf]
    exact .finalEnd free

theorem cons {e f : Element} (h : Alike w (last && es.isEmpty && fs.isEmpty) [e] [f])
    (h' : Alike w last es fs) : Alike w last (e :: es) (f :: fs) :=
  h.append h'

/-- Sequences one behind the other, where the first parts are alike inside a document. -/
theorem append_inner (h : Alike w false es fs) (h' : Alike w last es' fs') :
    Alike w last (es ++ es') (fs ++ fs') :=
  h.weaken.append h'

/-- A node around alike sequences at the end. -/
theorem singleton {k : Kind} (h : Alike w last es fs) :
    Alike w last [.node k es] [.node k fs] :=
  .node (by simpa using h) .nil

/-- Two rows of tokens that are all free. -/
theorem of_fillers (free : w.fillers = true)
    (he : ∀ e ∈ es, ∃ k t, e = .token k t ∧ w.frees k = true ∧ '\n' ∉ t)
    (hf : ∀ e ∈ fs, ∃ k t, e = .token k t ∧ w.frees k = true ∧ '\n' ∉ t) :
    Alike w last es fs := by
  induction es with
  | nil =>
    induction fs with
    | nil => exact .nil
    | cons f fs ih =>
      obtain ⟨k, t, rfl, hk, ht⟩ := hf f List.mem_cons_self
      exact .filler' free hk ht (ih fun e mem => hf e (List.mem_cons_of_mem _ mem))
  | cons e es ih =>
    obtain ⟨k, t, rfl, hk, ht⟩ := he e List.mem_cons_self
    exact .filler free hk ht (ih fun e mem => he e (List.mem_cons_of_mem _ mem))

/-- Alike stretches one behind the other. -/
theorem flatten {ess fss : List (List Element)} (h : InStep (Alike w) last ess fss) :
    Alike w last ess.flatten fss.flatten := by
  induction h with
  | nil => exact .nil
  | @cons es fs ess fss first others ih =>
    refine append ?_ ih
    -- stretches that follow may hold nothing
    cases ess with
    | cons =>
      rw [List.isEmpty_cons, Bool.and_false] at first
      exact first.weaken
    | nil =>
      cases others
      simpa using first

theorem flatMap {α : Type} {R : Bool → α → α → Prop} {f : α → List Element}
    (step : ∀ b x y, R b x y → Alike w b (f x) (f y)) {xs ys : List α} (h : InStep R last xs ys) :
    Alike w last (xs.flatMap f) (ys.flatMap f) := by
  rw [List.flatMap_def, List.flatMap_def]
  exact flatten (h.map step)

end Alike

/-! ## Without some tokens -/

namespace Element

/-- The element is a token of one of the kinds. -/
def isTokenOf (kinds : Kind → Bool) : Element → Bool
  | .token k _ => kinds k
  | .node _ _ => false

mutual

/-- The element without the tokens inside it whose kinds are to be dropped. -/
def without (drop : Kind → Bool) : Element → Element
  | .token k t => .token k t
  | .node k es => .node k (withoutOf drop es)

/-- A sequence of elements without the tokens of the kinds that are to be dropped, at any depth. -/
def withoutOf (drop : Kind → Bool) : List Element → List Element
  | [] => []
  | e :: es => if e.isTokenOf drop then withoutOf drop es else e.without drop :: withoutOf drop es

end

/-- A sequence of elements without white space and quote markers, at any depth. -/
def bareOf (es : List Element) : List Element := withoutOf Kind.isFiller es

end Element

theorem Element.withoutOf_cons_of_drop {drop : Kind → Bool} {k : Kind} (h : drop k = true)
    (t : Text) (es : List Element) : withoutOf drop (.token k t :: es) = withoutOf drop es := by
  rw [withoutOf]
  exact if_pos h

/-- What is alike apart from free tokens is the same without them. -/
theorem Alike.withoutOf_eq {w : Slack} {last : Bool} {es fs : List Element}
    (h : Alike w last es fs) (strict : w.lineEnds = false) {drop : Kind → Bool}
    (dropped : ∀ k, w.frees k = true → drop k = true) :
    Element.withoutOf drop es = Element.withoutOf drop fs := by
  induction h with
  | nil => rfl
  | token _ ih => rw [Element.withoutOf, Element.withoutOf, ih]
  | node _ _ ihInside ih =>
    rw [Element.withoutOf, Element.withoutOf, Element.without, Element.without, ihInside, ih]
    rfl
  | filler _ hk _ _ ih => rwa [Element.withoutOf_cons_of_drop (dropped _ hk)]
  | filler' _ hk _ _ ih => rwa [Element.withoutOf_cons_of_drop (dropped _ hk)]
  | lineEnd free => rw [strict] at free; cases free
  | finalEnd free => rw [strict] at free; cases free

/-- What is alike up to white space is the same without it. -/
theorem Alike.withoutSpaces_eq {last : Bool} {es fs : List Element}
    (h : Alike .spacesOnly last es fs) :
    Element.withoutOf (· == .whitespace) es = Element.withoutOf (· == .whitespace) fs :=
  h.withoutOf_eq rfl fun k free => by cases k <;> first | rfl | cases free

/-- What is alike up to white space and quote markers is the same without them. -/
theorem Alike.bareOf_eq {w : Slack} {last : Bool} {es fs : List Element} (h : Alike w last es fs)
    (strict : w.lineEnds = false) : Element.bareOf es = Element.bareOf fs :=
  h.withoutOf_eq strict fun _ => Slack.isFiller_of_frees

end TierLint
