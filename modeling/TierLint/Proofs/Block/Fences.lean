import TierLint.Proofs.Block.Origin
import TierLint.Proofs.Text.Run
import TierLint.Proofs.Text.Trim

/-!
# Fences

A fenced code block begins with a run of three or more backticks or tildes, none of its lines is a
closing fence, and it ends with one or goes on to the last line (`FencedCode.exact_of_read?`). What a
closing fence is can be said without a scan: a run of the fence's character among white space
(`Fence.closedBy_iff`).

It is looked for behind all white space, but written behind spaces and tabs. So the run is the marker
in the tree exactly if nothing else stands in front of it (`FencedCode.writtenAs_iff`).
-/

set_option autoImplicit false

namespace TierLint

open Element List Text

variable {f : Fence} {b : FencedCode} {l k : Line} {ls rest : List Line} {t : Text}

namespace Fence

/-- The text is a closing fence: at most three spaces or tabs in front, and a run of the fence's
character, at least as long, with only white space around it. -/
def Closes (f : Fence) (t : Text) : Prop :=
  indent t ≤ 3 ∧ ∃ gap n behind, t = gap ++ replicate n f.mark ++ behind ∧ f.length ≤ n ∧
    isBlank gap = true ∧ isBlank behind = true

/-- The elements are those of a closing fence: the whole run is the marker, and the white space
around it has tokens of its own. -/
def WrittenAs (f : Fence) (es : List Element) : Prop :=
  ∃ gap n behind,
    es = spacing gap ++ [.token .codeFenceMarker (replicate n f.mark)] ++ spacing behind ∧
      f.length ≤ n ∧ isBlank gap = true ∧ isBlank behind = true

/-- A run of backticks or tildes, three or more. -/
structure Proper (f : Fence) : Prop where
  mark : f.mark = '`' ∨ f.mark = '~'
  long : 3 ≤ f.length

namespace Proper

theorem ink (h : f.Proper) : Unicode.isWhiteSpace f.mark = false := by
  rcases h.mark with mark | mark <;> rw [mark] <;> decide

theorem startsBy_of_isBlank (h : f.Proper) (blank : isBlank t = true) :
    startsBy (· == f.mark) t = false := by
  cases t with
  | nil => rfl
  | cons c t =>
    have white : Unicode.isWhiteSpace c = true := all_eq_true.1 blank c mem_cons_self
    apply beq_eq_false_iff_ne.2
    intro same
    rw [same, h.ink] at white
    cases white

theorem trimStart_run (h : f.Proper) {n : Nat} (long : f.length ≤ n) (t : Text) :
    trimStart (replicate n f.mark ++ t) = replicate n f.mark ++ t := by
  obtain ⟨n, rfl⟩ := Nat.exists_eq_add_of_le (h.long.trans long)
  rw [Nat.add_comm, replicate_succ, cons_append, trimStart,
    dropWhile_cons_of_neg (by rw [h.ink]; exact Bool.false_ne_true)]

end Proper

theorem indentation_isBlank (t : Text) : isBlank (indentation t) = true :=
  all_eq_true.2 fun _ mem => isWhiteSpace_of_isIndentChar (mem_takeWhile_imp mem)

/-- The lines that close a block are the closing fences. -/
theorem closedBy_iff (proper : f.Proper) : f.closedBy l = true ↔ f.Closes l.content := by
  rw [closedBy, Bool.and_eq_true, Bool.and_eq_true, decide_eq_true_eq, decide_eq_true_eq, and_assoc]
  refine and_congr_right fun _ => ?_
  constructor
  · rintro ⟨long, blank⟩
    refine ⟨l.content.takeWhile Unicode.isWhiteSpace, _, _, ?_, long, ?_, blank⟩
    · rw [append_assoc, replicate_runLength_append_afterRun, trimStart,
        takeWhile_append_dropWhile]
    · exact all_eq_true.2 fun _ mem => mem_takeWhile_imp mem
  · rintro ⟨gap, n, behind, eq, long, white, blank⟩
    have stop := proper.startsBy_of_isBlank blank
    rw [eq, append_assoc, trimStart_append_of_isBlank white, proper.trimStart_run long,
      runLength_replicate_append stop, afterRun_replicate_append stop]
    exact ⟨long, blank⟩

/-- What an opening fence is: a run that the text begins with, all of it, and no backtick behind
backticks. -/
theorem proper_of_open? (h : open? t = some f) :
    f.Proper ∧ ∃ info, t = replicate f.length f.mark ++ info ∧ startsBy (· == f.mark) info = false ∧
      (f.mark = '`' → '`' ∉ info) := by
  cases t with
  | nil => cases h
  | cons c rest =>
    rw [open?] at h
    split at h
    · rename_i opens
      cases h
      simp only [Bool.and_eq_true, Bool.or_eq_true, beq_iff_eq, decide_eq_true_eq,
        Bool.not_eq_true', Bool.and_eq_false_iff, beq_eq_false_iff_ne] at opens
      obtain ⟨⟨mark, long⟩, info⟩ := opens
      refine ⟨⟨mark, long⟩, afterRun c rest, cons_eq_replicate_append_afterRun c rest,
        startsBy_afterRun c rest, ?_⟩
      intro tick mem
      rcases info with other | none
      · exact other tick
      · exact Bool.false_ne_true (none.symm.trans (contains_iff_mem.2 mem))
    · cases h

end Fence

namespace FencedCode

/-- The fences of the block are exact, and those of the lines between are no fences of it. -/
structure Exact (b : FencedCode) : Prop where
  proper : b.fence.Proper
  /-- The run behind the indentation is the marker, and a backtick fence has no more backticks. -/
  opening : ∃ info, unindented b.opening.content = replicate b.fence.length b.fence.mark ++ info ∧
    startsBy (· == b.fence.mark) info = false ∧ (b.fence.mark = '`' → '`' ∉ info) ∧
    b.openingElements = spacing (indentation b.opening.content) ++
      [.token .codeFenceMarker (replicate b.fence.length b.fence.mark)] ++ trimmed .codeInfo info
  /-- No line between is a closing fence. -/
  content : ∀ k ∈ b.content, ¬b.fence.Closes k.content
  closing : ∀ k ∈ b.closing?, b.fence.Closes k.content

/-- What a marker of a fence is does not depend on the white space around it. -/
theorem marker_of_spacing {a a' c c' s s' : Text}
    (h : spacing a ++ [.token .codeFenceMarker s] ++ spacing c =
      spacing a' ++ [.token .codeFenceMarker s'] ++ spacing c') : s = s' := by
  let marks (e : Element) : Bool := e.kind == .codeFenceMarker
  have only (a s c : Text) :
      (spacing a ++ [token .codeFenceMarker s] ++ spacing c).filter marks =
        [token .codeFenceMarker s] := by
    have none (t : Text) : (spacing t).filter marks = [] := by cases t <;> rfl
    rw [filter_append, filter_append, none, none]
    rfl
  have same := congrArg (filter marks) h
  rw [only, only] at same
  cases same
  rfl

/-- The closing fence is written as one exactly if only spaces and tabs stand in front of it. -/
theorem writtenAs_iff (proper : b.fence.Proper) (closes : b.fence.closedBy k = true) :
    b.fence.WrittenAs (b.closingElements k) ↔ trimStart k.content = unindented k.content := by
  constructor
  · rintro ⟨gap, n, behind, eq, long, -, -⟩
    have run := marker_of_spacing eq
    obtain ⟨m, rfl⟩ := Nat.exists_eq_add_of_le' (proper.long.trans long)
    -- the marker is a run of at least three, so nothing else stands behind the indentation
    have begins := (takeWhile_append_dropWhile (p := (· == b.fence.mark))
      (l := unindented k.content)).symm
    rw [run, replicate_succ, cons_append] at begins
    exact (trimStart_of_unindented begins proper.ink).trans begins.symm
  · intro eq
    rw [Fence.closedBy, eq, Bool.and_eq_true, Bool.and_eq_true, decide_eq_true_eq,
      decide_eq_true_eq] at closes
    refine ⟨_, _, _, ?_, closes.1.2, Fence.indentation_isBlank k.content, closes.2⟩
    rw [closingElements, takeWhile_eq_replicate]

/-- The parts of a block: the search for the closing fence parts the lines behind the opening one. -/
theorem parts_of_read? (h : read? (l :: ls) = some (b, rest)) :
    Fence.open? (unindented b.opening.content) = some b.fence ∧
      b.content = ls.takeWhile (!b.fence.closedBy ·) ∧
      b.closing? = (ls.dropWhile (!b.fence.closedBy ·)).head? := by
  rw [read?] at h
  split at h
  · obtain ⟨f, opens, eq⟩ := Option.map_eq_some_iff.1 h
    cases eq
    exact ⟨opens, rfl, rfl⟩
  · cases h

theorem closedBy_of_read? (h : read? (l :: ls) = some (b, rest)) {k : Line}
    (mem : k ∈ b.closing?) : b.fence.closedBy k = true := by
  obtain ⟨-, -, closing⟩ := parts_of_read? h
  have stops := head?_dropWhile_not (!b.fence.closedBy ·) ls
  rw [← closing, Option.mem_def.1 mem] at stops
  simpa using stops

theorem openingElements_eq {info : Text}
    (eq : unindented b.opening.content = replicate b.fence.length b.fence.mark ++ info) :
    b.openingElements = spacing (indentation b.opening.content) ++
      [.token .codeFenceMarker (replicate b.fence.length b.fence.mark)] ++
        trimmed .codeInfo info := by
  rw [openingElements, eq, take_left' length_replicate, drop_left' length_replicate]

/-- The fences of the blocks that are read are exact. -/
theorem exact_of_read? (h : read? (l :: ls) = some (b, rest)) : b.Exact := by
  obtain ⟨opens, content, -⟩ := parts_of_read? h
  obtain ⟨proper, info, eq, whole, ticks⟩ := Fence.proper_of_open? opens
  constructor
  case proper => exact proper
  case opening => exact ⟨info, eq, whole, ticks, openingElements_eq eq⟩
  case content =>
    intro k mem closes
    -- the search went on behind this line, so it does not close the block
    rw [content] at mem
    have goes := mem_takeWhile_imp mem
    rw [(Fence.closedBy_iff proper).2 closes] at goes
    cases goes
  case closing =>
    intro k mem
    exact (Fence.closedBy_iff proper).1 (closedBy_of_read? h mem)

end FencedCode

/-- A code block that begins with an opening fence is a fenced one. -/
theorem Block.fencedCode_of_element {block : Block} {inner : List (List Element)}
    {xs ys : List Element}
    (h : block.element inner = .ok (.node .codeBlock (.node .codeFenceOpen xs :: ys))) :
    ∃ code, block = .fencedCode code ∧
      .node .codeBlock (.node .codeFenceOpen xs :: ys) = code.element := by
  obtain ⟨es, same⟩ := kind_element h
  have kind : block.kind = .codeBlock := (Element.node.inj same).1.symm
  cases block with
  | fencedCode code =>
    cases h
    exact ⟨code, rfl, rfl⟩
  | indentedCode lines => cases h
  | paragraph p =>
    rw [Block.kind] at kind
    split at kind <;> cases kind
  | _ => cases kind

end TierLint
