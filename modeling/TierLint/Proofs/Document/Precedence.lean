import TierLint.Proofs.Block.Locality
import TierLint.Proofs.Document.Origin
import TierLint.Proofs.Text.Trim

/-!
# Which recognisers an item of a list comes behind

Where a block begins, the recognisers of blank lines, fences, `#` markers, thematic breaks and quotes
come before that of lists. The first item of a list is read there, so none of these accepts its first
line. A further item is read by the list itself, which looks for a marker of its own kind only.

A line with a marker cannot be anything that comes before lists but a thematic break
(`ListMarker.acceptedEarlier_eq_isBreak`). So the order of precedence is broken exactly by those
items behind the first that are thematic breaks as well.
-/

set_option autoImplicit false

namespace TierLint

open Element List Text

/-- A recogniser that comes before that of lists accepts the first line. -/
def Block.acceptedEarlier (lines : List Line) : Bool :=
  (recognisers.take 5).any fun recogniser => (recogniser lines).isSome

/-! ## Lines with a marker -/

namespace ListMarker

variable {l : Line} {m : ListMarker}

/-- A line with a marker is neither blank nor a fence, a heading or a quote. -/
theorem acceptedEarlier_eq_isBreak (h : read? l.content = some m) (ls : List Line) :
    Block.acceptedEarlier (l :: ls) = ThematicBreak.isBreak l.content := by
  obtain ⟨c, rest, eq, first⟩ := exists_cons_of_read? h
  obtain ⟨printed, backtick, tilde, hash, quote⟩ := ne_of_mem_or_isDigit first
  have blank : l.isBlank = false := isBlank_eq_false_of_unindented eq printed
  have fence : l.fence? = none := by
    rw [Line.fence?, eq, Fence.open?]
    simp [backtick, tilde]
  have level : AtxHeading.level? l.content = none := by
    rw [AtxHeading.level?, trimStart_of_unindented eq printed, runLength,
      takeWhile_cons_of_neg (by simp [hash])]
    simp
  have quoted : Quote.isQuoted l = false := by
    rw [Quote.isQuoted, eq, startsBy]
    simp [quote]
  simp [Block.acceptedEarlier, Block.recognisers, Block.readBlank?, Block.fencedCode_read?,
    AtxHeading.read?, ThematicBreak.read?, Quote.read?, blank, fence, level, quoted]
  split <;> simp_all

end ListMarker

/-- A thematic break is one wherever a block begins. -/
theorem Block.next_of_isBreak {l : Line} (h : ThematicBreak.isBreak l.content = true)
    (ls : List Line) : next l ls = (thematicBreak l, ls) := by
  have accepted := h
  rw [ThematicBreak.isBreak] at h
  split at h
  · cases h
  · rename_i c rest eq
    simp only [Bool.and_eq_true, Bool.or_eq_true, beq_iff_eq] at h
    obtain ⟨⟨⟨-, sign⟩, -⟩, -⟩ := h
    have blank : l.isBlank = false :=
      isBlank_eq_false_of_trimStart (by rw [eq]; exact cons_ne_nil c rest)
    have fence : l.fence? = none := by
      rw [Line.fence?]
      split
      · refine Option.eq_none_iff_forall_ne_some.2 fun fence found => ?_
        obtain ⟨d, behind, start, mark⟩ := Fence.exists_cons_of_open? found
        have printed : Unicode.isWhiteSpace d = false := by
          rcases mark with rfl | rfl <;> decide
        rw [trimStart_of_unindented start printed] at eq
        cases eq
        rcases mark with rfl | rfl <;> simp at sign
      · rfl
    have level : AtxHeading.level? l.content = none := by
      have hash : c ≠ '#' := by
        rintro rfl
        simp at sign
      rw [AtxHeading.level?, eq, runLength, takeWhile_cons_of_neg (by simp [hash])]
      simp
    have opener : l.opener = .thematicBreak := by
      simp [Line.opener, blank, fence, level, accepted]
    rw [next_eq_opened, opener]
    rfl

/-! ## Items -/

namespace ListItem

variable {lines : List Line} {front : List ListItem} {i : ListItem}

/-- The first item of a list stands on a line that opens the list. -/
theorem StandsIn.opener_first (h : i.StandsIn lines []) : i.first.opener = .item i.marker := by
  obtain ⟨l, ls, back, -, eq⟩ := h
  obtain ⟨m, opens, items⟩ := Block.list_of_next eq
  obtain ⟨others, first⟩ := exists_sequence_eq_cons [] m l ls
  rw [← items, nil_append] at first
  cases first
  exact opens

end ListItem

namespace Document

variable {t : Text} {tree : Element} {v : Visit}

/-- **Precedence.** A thematic break is one wherever a block begins. An item of a list begins with a
line that some earlier recogniser accepts exactly if it is not the first item of its list and the
line is a thematic break. -/
theorem acceptedEarlier_iff (h : parse t = .ok tree) (hv : v ∈ tree.nodesOf .listItem) :
    (∀ l ls, ThematicBreak.isBreak l.content = true → Block.next l ls = (.thematicBreak l, ls)) ∧
    ∃ front i inside, ListItem.StandsIn (body t) front i ∧ Block.elementsOf i.inner = .ok inside ∧
      v.element = i.node inside ∧
      ∀ ls, Block.acceptedEarlier (i.first :: ls) = true ↔
        front ≠ [] ∧ ThematicBreak.isBreak i.first.content = true := by
  refine ⟨fun l ls accepted => Block.next_of_isBreak accepted ls, ?_⟩
  obtain ⟨front, i, inside, stands, ok, eq⟩ := exists_item_of_mem_nodesOf h hv
  refine ⟨front, i, inside, stands, ok, eq, fun ls => ?_⟩
  rw [ListMarker.acceptedEarlier_eq_isBreak stands.wellMarked]
  refine ⟨fun accepted => ⟨?_, accepted⟩, And.right⟩
  rintro rfl
  -- where the list begins, thematic breaks come first
  have refused := (Line.opener_eq_item_iff.1 stands.opener_first).2.2.2.1
  rw [accepted] at refused
  cases refused

/-- Two items of a list, of which none is a thematic break. -/
theorem acceptedEarlier_iff_second_item :
    let t := "- a\n- b\n".toList
    ∃ tree v, parse t = .ok tree ∧ v ∈ tree.nodesOf .listItem ∧ v.start = 4 ∧
      ∃ front i inside, ListItem.StandsIn (body t) front i ∧ v.element = i.node inside ∧
        ∀ ls, Block.acceptedEarlier (i.first :: ls) = true ↔
          front ≠ [] ∧ ThematicBreak.isBreak i.first.content = true := by
  intro t
  have found : (parse t).toOption.map (fun tree => (tree.nodesOf .listItem).map (·.start)) =
      some [0, 4] := by
    decide +kernel
  cases parsed : parse t with
  | error e =>
    rw [parsed] at found
    cases found
  | ok tree =>
    rw [parsed] at found
    have starts : (tree.nodesOf .listItem).map (·.start) = [0, 4] := Option.some.inj found
    obtain ⟨v, hv, start⟩ := mem_map.1 (starts ▸ mem_cons_of_mem 0 (mem_singleton.2 rfl))
    obtain ⟨-, front, i, inside, stands, -, eq, same⟩ := acceptedEarlier_iff parsed hv
    exact ⟨tree, v, rfl, hv, start, front, i, inside, stands, eq, same⟩

/-- Behind an item, a thematic break of dashes is read as a further item of the list. -/
theorem thematic_break_read_as_item :
    let t := "- a\n- - -\n".toList
    let l : Line := ⟨[], "- - -".toList, .lf⟩
    let dash : ListMarker := ⟨.bullet '-', 0, ['-'], 1, none⟩
    let first : ListItem := ⟨[], dash, ⟨[], "- a".toList, .lf⟩, []⟩
    let second : ListItem := ⟨[], dash, l, []⟩
    second.StandsIn (body t) [first] ∧ ThematicBreak.isBreak l.content = true ∧
      Block.acceptedEarlier [l] = true ∧
      parse t = .ok (Document.tree [.node .list
        [first.node [.node .paragraph [.token .text ['a'], .token .newline ['\n']]],
         second.node [.node .list [.node .listItem
          [.token .listMarker ['-'], .token .whitespace [' '],
           .node .list [.node .listItem [.token .listMarker ['-'],
            .node .blankLine [.token .newline ['\n']]]]]]]]]) := by
  dsimp only
  refine ⟨⟨⟨[], "- a".toList, .lf⟩, [⟨[], "- - -".toList, .lf⟩], [], ?_, by decide +kernel⟩,
    by decide +kernel, by decide +kernel, by decide +kernel⟩
  have lines : body "- a\n- - -\n".toList =
      [⟨[], "- a".toList, .lf⟩, ⟨[], "- - -".toList, .lf⟩] := by
    decide +kernel
  rw [lines]
  exact .refl _

end Document

end TierLint
