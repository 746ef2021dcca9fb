import TierLint.Proofs.Block.Progress
import TierLint.Proofs.Document.Origin
import TierLint.Proofs.Offsets.Document

/-!
# Progress of the loop over blocks

Wherever the loop stands, either reading the block there comes to a heading's marker that cannot be
cut out, or one of the recognisers finds a block that ends further on and within the lines
(`Round`). So the line is never kept as literal text.

The recognisers call the loop again for the lines inside the block and for no others
(`firstFound_eq_of_inside`), and these have smaller contents than the lines that the block takes. As
many levels as the contents have bytes are enough for the recursion
(`blocksWithin_eq_of_contentSize`), and a text has a tree or a marker that fails
(`parse_eq_ok_or_marker`).
-/

set_option autoImplicit false

namespace TierLint.Offsets

open Text Element

variable {ps xs : List Placed} {x : Placed} {pos depth : Nat}
  {blocks : List RawLine → Except Fault (List Element)}

/-! ## The recursion -/

theorem reads_elementsOf (ls : List Line) : Reads elementsOf ls := by
  rintro ys rfl
  exact elementsOf_eq ys

/-- The loop calls itself for the lines inside containers. -/
theorem elementsOf_eq_scan (ps : List Placed) :
    elementsOf (raws ps) =
      scan (blocksStep elementsOf (raws ps)) (fun written _ => .ok written) (raws ps).length [] 0 := by
  have within : ReadsWithin elementsOf (lines ps) := fun _ _ _ inner _ => reads_elementsOf inner
  rw [scan_blocks List.drop_zero within, elementsOf_eq]
  cases Block.elementsOf (lines ps) <;> rfl

/-- One level more than the contents have bytes is enough. -/
theorem blocksWithin_eq_of_contentSize (h : Line.contentSize (lines ps) < depth) :
    blocksWithin depth (raws ps) = elementsOf (raws ps) := by
  rw [elementsOf_eq]
  exact blocksWithin_eq Line.contentSize_le_of_suffix Block.contentSize_inside_lt ps h

/-- What is found does not depend on how other lines are read than those inside the block. -/
theorem firstFound_eq_of_inside (hx : ps.drop pos = x :: xs)
    (inside : ∀ ys, lines ys ∈ (Block.next x.line (lines xs)).1.inside →
      blocks (raws ys) = elementsOf (raws ys)) :
    firstFound (raws ps) pos (recognisers blocks) =
      firstFound (raws ps) pos (recognisers elementsOf) := by
  have asked : ∀ ks ∈ (Block.next x.line (lines xs)).1.inside, Reads blocks ks := by
    rintro ks mem ys rfl
    rw [inside ys mem]
    exact elementsOf_eq ys
  rw [firstFound_next hx asked, firstFound_next hx fun ks _ => reads_elementsOf ks]

/-! ## Rounds -/

/-- What is found is found by one of the recognisers. -/
theorem exists_of_firstFound {ls : List RawLine} {block : Element × Nat}
    {recognisers : List (List RawLine → Nat → Found)}
    (h : firstFound ls pos recognisers = .ok (some block)) :
    ∃ recogniser ∈ recognisers, recogniser ls pos = .ok (some block) := by
  induction recognisers with
  | nil => cases h
  | cons recogniser others ih =>
    rw [firstFound] at h
    obtain ⟨result, tried, h⟩ := exists_of_bind_eq_ok h
    cases result with
    | none =>
      obtain ⟨other, mem, found⟩ := ih h
      exact ⟨other, List.mem_cons_of_mem _ mem, found⟩
    | some found =>
      cases h
      exact ⟨recogniser, List.mem_cons_self, tried⟩

/-- A recogniser finds a block from `pos` up to `next`, and the loop writes its element `e` and goes on
behind it. -/
structure Finds (ps : List Placed) (pos next : Nat) (e : Element) : Prop where
  recogniser : ∃ recogniser ∈ recognisers elementsOf, recogniser (raws ps) pos = .ok (some (e, next))
  first : firstFound (raws ps) pos (recognisers elementsOf) = .ok (some (e, next))
  round : ∀ written, blocksStep elementsOf (raws ps) written pos = .ok (.go (written ++ [e]) next)

/-- A round of the loop at index `pos`, in front of the line `l` with the lines `ls` behind it. The
block there ends in front of index `next`. -/
structure Round (ps : List Placed) (pos : Nat) (l : Line) (ls : List Line) (next : Nat) : Prop where
  place : (lines ps).drop pos = l :: ls
  /-- The lines behind the block are those from `next` on. -/
  behind : (lines ps).drop next = (Block.next l ls).2
  further : pos < next
  inRange : next ≤ ps.length
  /-- A marker fails, or a recogniser finds the block. -/
  ends : (Block.MarkerFails l ls ∧
      firstFound (raws ps) pos (recognisers elementsOf) = .error .marker) ∨
    ¬ Block.MarkerFails l ls ∧ ∃ e, Finds ps pos next e
  /-- The loop is called for nothing but the lines inside the block. -/
  calls : ∀ blocks : List RawLine → Except Fault (List Element),
    (∀ ys, lines ys ∈ (Block.next l ls).1.inside → blocks (raws ys) = elementsOf (raws ys)) →
      firstFound (raws ps) pos (recognisers blocks) =
        firstFound (raws ps) pos (recognisers elementsOf)
  /-- These are enclosed by a stretch of the lines that the block takes. -/
  encloses : ∀ inner ∈ (Block.next l ls).1.inside, ∃ front own back,
    ((lines ps).take next).drop pos = front ++ own ++ back ∧ Block.Encloses own inner

/-- The contents of the lines inside are smaller than those of the lines that the block takes. -/
theorem Round.smaller {l : Line} {ls inner : List Line} {next : Nat} (h : Round ps pos l ls next)
    (mem : inner ∈ (Block.next l ls).1.inside) :
    Line.contentSize inner < Line.contentSize (((lines ps).take next).drop pos) := by
  obtain ⟨front, own, back, whole, encloses⟩ := h.encloses inner mem
  have less := encloses.smaller
  rw [whole, Line.contentSize_append, Line.contentSize_append]
  omega

/-- A round fails with the element of its block, or finds it. -/
theorem ends_of_drop (hx : ps.drop pos = x :: xs) {next : Nat}
    (hn : ps.length - (Block.next x.line (lines xs)).2.length = next) :
    (Block.MarkerFails x.line (lines xs) ∧
        firstFound (raws ps) pos (recognisers elementsOf) = .error .marker) ∨
      ¬ Block.MarkerFails x.line (lines xs) ∧ ∃ e, Finds ps pos next e := by
  have fits : failure? (Block.next x.line (lines xs)).1.tree = none ↔
      ¬ Block.MarkerFails x.line (lines xs) := Block.failure?_tree_next_eq_none_iff
  have found := firstFound_next hx fun ks _ => reads_elementsOf ks
  have step := blocksStep_eq hx fun ks _ => reads_elementsOf ks
  rw [hn] at found step
  cases made : (Block.next x.line (lines xs)).1.tree with
  | error e =>
    left
    rw [made] at fits found
    refine ⟨?_, found⟩
    by_contra no
    cases fits.2 no
  | ok e =>
    right
    rw [made] at fits found step
    exact ⟨fits.1 rfl, e, exists_of_firstFound found, found, step⟩

theorem round_of_drop (hx : ps.drop pos = x :: xs) :
    Round ps pos x.line (lines xs) (ps.length - (Block.next x.line (lines xs)).2.length) := by
  have suffix := Block.suffix_next x.line (lines xs)
  have further := further_of_suffix hx suffix
  have place : (lines ps).drop pos = x.line :: lines xs := by
    rw [← List.map_drop, hx, List.map_cons]
  have behind : (lines ps).drop (ps.length - (Block.next x.line (lines xs)).2.length) =
      (Block.next x.line (lines xs)).2 := by
    obtain ⟨zs, rest, seen⟩ := exists_suffix (drop_succ_of_drop hx) suffix
    rw [← List.map_drop, rest]
    exact seen
  have inRange := Nat.sub_le ps.length (Block.next x.line (lines xs)).2.length
  have ends := ends_of_drop hx rfl
  generalize ps.length - (Block.next x.line (lines xs)).2.length = next at *
  refine ⟨place, behind, further, inRange, ends, fun _ => firstFound_eq_of_inside hx, ?_⟩
  -- the lines that the block takes are those in front of the lines behind it
  have fits : pos ≤ ((lines ps).take next).length := by
    rw [List.length_take, List.length_map]
    omega
  have taken : ((lines ps).take next).drop pos ++ (Block.next x.line (lines xs)).2 =
      x.line :: lines xs := by
    rw [← behind, ← List.drop_append_of_le_length fits, List.take_append_drop, place]
  intro inner mem
  obtain ⟨front, own, back, whole, encloses⟩ := Block.exists_encloses_of_inside mem
  exact ⟨front, own, back, List.append_cancel_right (taken.trans whole), encloses⟩

/-! ## Texts -/

/-- A text has a tree, or its body a heading whose marker fails. -/
theorem parse_eq_ok_or_marker (t : Text) :
    (∃ tree, parse t = .ok tree) ∨
      parse t = .error .marker ∧
        ∃ k ks, Block.LeadsTo (Document.body t) (k :: ks) ∧ k.MarkerSplits := by
  rw [parse_eq]
  cases parsed : Document.parse t with
  | ok tree => exact .inl ⟨tree, rfl⟩
  | error e =>
    refine .inr ⟨rfl, ?_⟩
    by_contra no
    have fits : failure? (Block.elementsOf (Document.body t)) = none := by
      apply Block.failure?_elementsOf_eq_none_iff.2
      intro k ks leads splits
      exact no ⟨k, ks, leads, splits⟩
    obtain ⟨es, made⟩ := failure?_eq_none_iff.1 fits
    have tree := Document.parse_eq_ok_iff_body.2 ⟨es, made, rfl⟩
    cases parsed.symm.trans tree

/-- **Progress.** At every index within the lines, the loop over blocks ends a round further on and
within the lines, unless a marker fails. It calls itself for lines inside containers only, whose
contents are smaller than those of the lines that the container takes. So no run of steps goes on for
ever, containers are nested at most as deep as the contents have bytes, a recursion of that depth is
enough, and a text has a tree or a marker that fails. -/
theorem blocks_progress :
    (∀ ps pos, pos < ps.length → ∃ l ls next, Round ps pos l ls next ∧
      ∀ inner ∈ (Block.next l ls).1.inside,
        Line.contentSize inner < Line.contentSize (((lines ps).take next).drop pos)) ∧
    WellFounded (fun rest all => Block.Step all rest) ∧
    (∀ all rest, Block.LeadsTo all rest ↔ ∃ depth, Block.ReachedAt all depth rest) ∧
    (∀ all depth rest, Block.ReachedAt all depth rest →
      depth + Line.contentSize rest ≤ Line.contentSize all) ∧
    (∀ ps, elementsOf (raws ps) =
        scan (blocksStep elementsOf (raws ps)) (fun written _ => .ok written) (raws ps).length
          [] 0 ∧
      ∀ depth, Line.contentSize (lines ps) < depth →
        blocksWithin depth (raws ps) = elementsOf (raws ps)) ∧
    ∀ t, (∃ tree, parse t = .ok tree) ∨
      parse t = .error .marker ∧
        ∃ k ks, Block.LeadsTo (Document.body t) (k :: ks) ∧ k.MarkerSplits := by
  refine ⟨?rounds, Block.wellFounded_step, fun _ _ => Block.leadsTo_iff_exists_reachedAt, ?depth,
    ?recursion, parse_eq_ok_or_marker⟩
  case rounds =>
    intro ps pos inRange
    cases hx : ps.drop pos with
    | nil => exact absurd (List.drop_eq_nil_iff.1 hx) (Nat.not_le.2 inRange)
    | cons x xs =>
      have round := round_of_drop hx
      exact ⟨_, _, _, round, fun inner => round.smaller⟩
  case depth =>
    intro all depth rest reached
    exact reached.add_contentSize_le
  case recursion =>
    intro ps
    refine ⟨elementsOf_eq_scan ps, ?_⟩
    intro depth deep
    exact blocksWithin_eq_of_contentSize deep

/-- A quote around the first of two lines. -/
theorem blocks_progress_quote :
    ∃ l ls next, Round [⟨[], ⟨[], "> é".toList, .lf⟩⟩, ⟨[], ⟨[], ['#'], .none⟩⟩] 0 l ls next ∧
      (Block.next l ls).1.inside = [[⟨['>', ' '], ['é'], .lf⟩]] ∧
      ∀ inner ∈ (Block.next l ls).1.inside, Line.contentSize inner <
        Line.contentSize (([⟨[], "> é".toList, .lf⟩, ⟨[], ['#'], .none⟩].take next).drop 0) := by
  obtain ⟨l, ls, next, round, smaller⟩ :=
    blocks_progress.1 [⟨[], ⟨[], "> é".toList, .lf⟩⟩, ⟨[], ⟨[], ['#'], .none⟩⟩] 0 (by decide)
  have place : [⟨[], "> é".toList, .lf⟩, ⟨[], ['#'], .none⟩] = l :: ls := round.place
  cases place
  have inside : (Block.next ⟨[], "> é".toList, .lf⟩ [⟨[], ['#'], .none⟩]).1.inside =
      [[⟨['>', ' '], ['é'], .lf⟩]] := by
    decide +kernel
  exact ⟨_, _, next, round, inside, smaller⟩

end TierLint.Offsets
