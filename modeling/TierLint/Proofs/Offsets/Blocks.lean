import TierLint.Proofs.Block.Opener
import TierLint.Proofs.Offsets.AtxHeading
import TierLint.Proofs.Offsets.Container
import TierLint.Proofs.Offsets.FencedCode
import TierLint.Proofs.Offsets.Paragraph
import TierLint.Proofs.Offsets.Table

/-!
# Sequences of blocks by index

The loop over the blocks of a container tries the recognisers in order and goes on behind the block
that one of them found; a line that none recognises is kept as literal text. Containers call the
loop again for the lines inside them. A recursion deeper than there are lines and characters would
go on for ever, and counts as a fault.

Each recogniser finds what the reader of its kind finds (`recognisers_eq`), and one of them finds the
next block (`firstFound_next`). So one round of the loop writes it (`blocksStep_eq`), and by induction
on the depth, and for each depth on the lines that are left, the loop writes the elements that the
reader returns (`elementsOf_eq`).
-/

set_option autoImplicit false

namespace TierLint.Offsets

open Text Element

variable {ps xs : List Placed} {x : Placed} {pos : Nat}
  {blocks : List RawLine → Except Fault (List Element)}

/-- The recognisers in the order of precedence. -/
def recognisers (blocks : List RawLine → Except Fault (List Element)) :
    List (List RawLine → Nat → Found) :=
  [blankLine, fencedCode, atxHeading, thematicBreak, quote blocks, list blocks, htmlBlock, table,
    indentedCode, paragraph]

/-- What the first successful recogniser finds. -/
def firstFound (ls : List RawLine) (pos : Nat) : List (List RawLine → Nat → Found) → Found
  | [] => .ok none
  | recogniser :: others => do
    match ← recogniser ls pos with
    | some block => .ok (some block)
    | none => firstFound ls pos others

/-- One round of the loop over blocks. -/
def blocksStep (blocks : List RawLine → Except Fault (List Element)) (ls : List RawLine)
    (written : List Element) (pos : Nat) : Except Fault (Next (List Element) (List Element)) := do
  let l ← lineAt ls pos
  -- the content is shown in a trace
  let _ ← l.content
  match ← firstFound ls pos (recognisers blocks) with
  | some (element, next) =>
    if pos < next then .ok (.go (written ++ [element]) next)
    else .ok (.go (written ++ [.node .paragraph (← l.elements .text)]) (pos + 1))
  | none => .ok (.go (written ++ [.node .paragraph (← l.elements .text)]) (pos + 1))

/-- The elements of some lines, where containers are at most so many levels deep. -/
def blocksWithin : Nat → List RawLine → Except Fault (List Element)
  | 0, _ => .error .stuck
  | depth + 1, ls =>
    scan (blocksStep (blocksWithin depth) ls) (fun written _ => .ok written) ls.length [] 0

/-- The number of lines and of their characters. -/
def size (ls : List RawLine) : Nat := ls.foldr (fun l n => l.raw.length + 1 + n) 0

/-- The elements of the blocks that some lines consist of. -/
def elementsOf (ls : List RawLine) : Except Fault (List Element) := blocksWithin (size ls + 1) ls

/-! ## Recognisers -/

/-- A block that the reader returns with the lines behind it, as its element and the index behind
it. -/
def found (len : Nat) : Option (Block × List Line) → Found
  | none => .ok none
  | some (block, rest) => (outcome block.tree).map fun e => some (e, len - rest.length)

/-- A block without lines inside, whose element is always made. -/
theorem found_leaf {α : Type} {recognised : Found} {read? : Option (α × List Line)} {len : Nat}
    {element : α → Element} (block : α → Block) (tree : ∀ a, (block a).tree = .ok (element a))
    (h : recognised = .ok (read?.map fun (a, rest) => (element a, len - rest.length))) :
    recognised = found len (read?.map fun (a, rest) => (block a, rest)) := by
  rw [h]
  cases read? with
  | none => rfl
  | some result =>
    rw [Option.map_some, Option.map_some, found, tree]
    rfl

/-- Headings have no lines inside either, but their element may not be made. -/
theorem found_heading (hx : ps.drop pos = xs) :
    atxHeading (raws ps) pos = found ps.length ((AtxHeading.read? (lines xs)).map fun
      (heading, rest) => (.atxHeading heading, rest)) := by
  rw [atxHeading_eq hx]
  cases AtxHeading.read? (lines xs) <;> rfl

/-- The lines inside the block that a reader returns are read as the reader reads them. -/
def ReadsInside (blocks : List RawLine → Except Fault (List Element))
    (result? : Option (Block × List Line)) : Prop :=
  ∀ result ∈ result?, ∀ ks ∈ result.1.inside, Reads blocks ks

theorem found_quote (hx : ps.drop pos = xs)
    (inside : ReadsInside blocks ((Quote.read? (lines xs)).map fun
      (inner, rest) => (.quote inner, rest))) :
    quote blocks (raws ps) pos = found ps.length ((Quote.read? (lines xs)).map fun
      (inner, rest) => (.quote inner, rest)) := by
  have asked : ∀ inner rest, Quote.read? (lines xs) = some (inner, rest) → Reads blocks inner := by
    intro inner rest read
    rw [read] at inside
    exact inside _ rfl inner List.mem_cons_self
  rw [quote_eq hx asked]
  cases Quote.read? (lines xs) with
  | none => rfl
  | some result =>
    obtain ⟨inner, rest⟩ := result
    simp only [Option.map_some, found, Block.tree, Block.inside, List.mapM_cons, List.mapM_nil]
    cases Block.elementsOf inner with
    | error e => rfl
    | ok es =>
      change _ = Except.ok (some (node .blockQuote [es].flatten, _))
      rw [List.flatten_singleton]
      rfl

/-- Making the elements of all items, and then putting them together with the markers, is making the
items one by one. -/
theorem mapM_itemTree (items : List ListItem) :
    items.mapM itemTree = ((items.map ListItem.inner).mapM Block.elementsOf).map
      (List.zipWith ListItem.elements items) := by
  induction items with
  | nil => rfl
  | cons i items ih =>
    rw [List.mapM_cons, List.map_cons, List.mapM_cons, ih, itemTree]
    cases Block.elementsOf i.inner with
    | error e => rfl
    | ok es => cases (items.map ListItem.inner).mapM Block.elementsOf <;> rfl

theorem found_list (hx : ps.drop pos = xs)
    (inside : ReadsInside blocks ((ListItem.read? (lines xs)).map fun
      (items, rest) => (.list items, rest))) :
    list blocks (raws ps) pos = found ps.length ((ListItem.read? (lines xs)).map fun
      (items, rest) => (.list items, rest)) := by
  have asked : ∀ items rest, ListItem.read? (lines xs) = some (items, rest) →
      ∀ i ∈ items, Reads blocks i.inner := by
    intro items rest read i hi
    rw [read] at inside
    exact inside _ rfl i.inner (List.mem_map_of_mem hi)
  rw [list_eq hx asked]
  cases ListItem.read? (lines xs) with
  | none => rfl
  | some result =>
    obtain ⟨items, rest⟩ := result
    simp only [Option.map_some, found, Block.tree, Block.inside, mapM_itemTree]
    cases (items.map ListItem.inner).mapM Block.elementsOf <;> rfl

/-- Each recogniser finds what the reader of its kind finds, if the lines inside are read. -/
theorem recognisers_eq (blocks : List RawLine → Except Fault (List Element))
    (hx : ps.drop pos = xs) :
    List.Forall₂ (fun recogniser reader => ReadsInside blocks (reader (lines xs)) →
        recogniser (raws ps) pos = found ps.length (reader (lines xs)))
      (recognisers blocks) Block.recognisers := by
  refine .cons ?blank <| .cons ?fencedCode <| .cons (fun _ => found_heading hx) <|
    .cons ?thematicBreak <| .cons (found_quote hx) <| .cons (found_list hx) <| .cons ?html <|
    .cons ?table <| .cons ?indentedCode <| .cons ?paragraph .nil
  case blank => exact fun _ => found_leaf .blank (fun _ => rfl) (blankLine_eq hx)
  case fencedCode => exact fun _ => found_leaf .fencedCode (fun _ => rfl) (fencedCode_eq hx)
  case thematicBreak =>
    exact fun _ => found_leaf .thematicBreak (fun _ => rfl) (thematicBreak_eq hx)
  case html => exact fun _ => found_leaf .html (fun _ => rfl) (htmlBlock_eq hx)
  case table => exact fun _ => found_leaf .table (fun _ => rfl) (table_eq hx)
  case indentedCode => exact fun _ => found_leaf .indentedCode (fun _ => rfl) (indentedCode_eq hx)
  case paragraph => exact fun _ => found_leaf .paragraph (fun _ => rfl) (paragraph_eq hx)

/-- Trying in order finds what the first successful reader returns. Only the lines inside that block
have to be read. -/
theorem firstFound_eq {recognisers : List (List RawLine → Nat → Found)}
    {readers : List (List Line → Option (Block × List Line))}
    (h : List.Forall₂ (fun recogniser reader => ReadsInside blocks (reader (lines xs)) →
      recogniser (raws ps) pos = found ps.length (reader (lines xs))) recognisers readers)
    (inside : ReadsInside blocks (readers.findSome? (· (lines xs)))) :
    firstFound (raws ps) pos recognisers = found ps.length (readers.findSome? (· (lines xs))) := by
  induction h with
  | nil => rfl
  | @cons recogniser reader recognisers readers first _ ih =>
    rw [firstFound, List.findSome?_cons]
    rw [List.findSome?_cons] at inside
    cases read : reader (lines xs) with
    | none =>
      rw [read] at first inside
      rw [first nofun]
      exact ih inside
    | some result =>
      rw [read] at first inside
      rw [first inside, found]
      cases outcome result.1.tree <;> rfl

/-! ## The loop -/

/-- The first block, and then the blocks of the lines behind it. -/
theorem elementsOf_next (l : Line) (ls : List Line) :
    Block.elementsOf (l :: ls) = (do
      let first ← (Block.next l ls).1.tree
      let others ← Block.elementsOf (Block.next l ls).2
      .ok (first :: others)) := by
  rw [Block.elementsOf_cons, Block.tree, bind_assoc]

/-- The lines behind a block begin further on. -/
theorem further_of_suffix {rest : List Line} (hx : ps.drop pos = x :: xs) (h : rest <:+ lines xs) :
    pos < ps.length - rest.length := by
  have fits := h.length_le
  have whole := length_of_drop hx
  rw [List.length_map] at fits
  omega

/-- Where a line stands, the recognisers find the block that begins with it. -/
theorem firstFound_next (hx : ps.drop pos = x :: xs)
    (inside : ∀ ks ∈ (Block.next x.line (lines xs)).1.inside, Reads blocks ks) :
    firstFound (raws ps) pos (recognisers blocks) =
      (outcome (Block.next x.line (lines xs)).1.tree).map fun e =>
        some (e, ps.length - (Block.next x.line (lines xs)).2.length) := by
  have recognised := Block.recognise?_eq_some_next x.line (lines xs)
  rw [Block.recognise?, ← lines_cons] at recognised
  rw [firstFound_eq (recognisers_eq blocks hx), recognised, found]
  rw [recognised]
  rintro result ⟨⟩
  exact inside

/-- One round writes the next block and goes on behind it. The block takes at least one line, so the
line is never kept as literal text. -/
theorem blocksStep_eq (hx : ps.drop pos = x :: xs)
    (inside : ∀ ks ∈ (Block.next x.line (lines xs)).1.inside, Reads blocks ks)
    (written : List Element) :
    blocksStep blocks (raws ps) written pos =
      (outcome (Block.next x.line (lines xs)).1.tree).map fun e =>
        .go (written ++ [e]) (ps.length - (Block.next x.line (lines xs)).2.length) := by
  have further := further_of_suffix hx (Block.suffix_next x.line (lines xs))
  rw [blocksStep, lineAt_of_drop hx, ok_bind, x.content_raw, ok_bind, firstFound_next hx inside]
  cases outcome (Block.next x.line (lines xs)).1.tree with
  | error e => rfl
  | ok e => exact if_pos further

/-- Lines that remain behind a place stand at the end of the sequence. -/
theorem exists_suffix {rest : List Line} (hx : ps.drop pos = xs) (h : rest <:+ lines xs) :
    ∃ zs, ps.drop (ps.length - rest.length) = zs ∧ lines zs = rest := by
  have whole : rest <:+ lines ps := by
    refine h.trans ?_
    rw [← hx, lines, List.map_drop]
    exact List.drop_suffix _ _
  refine ⟨_, rfl, ?_⟩
  rw [lines, List.map_drop, ← lines, List.suffix_iff_eq_drop.1 whole, List.length_drop,
    List.length_map]
  have fits := whole.length_le
  rw [List.length_map] at fits
  congr 1
  omega

/-- The lines inside any container that begins in these lines are read as the reader reads them. -/
def ReadsWithin (blocks : List RawLine → Except Fault (List Element)) (ls : List Line) : Prop :=
  ∀ k ks, k :: ks <:+ ls → ∀ inner ∈ (Block.next k ks).1.inside, Reads blocks inner

/-- From a place on, the loop writes the elements of the lines behind it. The induction is on the
number of these lines. -/
theorem scan_blocks (hx : ps.drop pos = xs) (inside : ReadsWithin blocks (lines xs))
    (written : List Element) :
    scan (blocksStep blocks (raws ps)) (fun written _ => .ok written) (raws ps).length written pos =
      (outcome (Block.elementsOf (lines xs))).map (written ++ ·) := by
  induction hn : xs.length using Nat.strongRecOn generalizing pos xs written with
  | ind n ih =>
    cases xs with
    | nil =>
      rw [scan_end (length_raws_le hx), lines_nil, Block.elementsOf_nil]
      exact congrArg Except.ok (List.append_nil _).symm
    | cons x xs =>
      have step := blocksStep_eq hx (inside _ _ (List.suffix_refl _)) written
      rw [lines_cons, elementsOf_next]
      cases next : Block.next x.line (lines xs) with
      | mk block rest =>
        rw [next] at step
        obtain ⟨suffix, -⟩ := Block.suffix_and_lighter_of_next next
        simp only
        cases tree : block.tree with
        | error e =>
          -- the loop fails with the block
          rw [tree] at step
          exact scan_error (lt_length_raws hx) step
        | ok e =>
          rw [tree] at step
          -- behind the block are fewer lines
          obtain ⟨zs, place, rfl⟩ := exists_suffix (drop_succ_of_drop hx) suffix
          have further := further_of_suffix hx suffix
          have shorter := suffix.length_le
          rw [List.length_map, List.length_map] at shorter
          have later : ReadsWithin blocks (lines zs) := fun k ks behind =>
            inside k ks (behind.trans (suffix.trans (List.suffix_cons _ _)))
          have fewer : zs.length < n := by
            rw [← hn, List.length_cons]
            omega
          rw [scan_go (lt_length_raws hx) step further, ih _ fewer place later _ rfl]
          cases Block.elementsOf (lines zs) with
          | error e => rfl
          | ok es => exact congrArg Except.ok (List.append_assoc ..)

/-- A depth is enough if it exceeds a measure of the lines that is no larger behind a block and smaller
inside of one. -/
theorem blocksWithin_eq {measure : List Line → Nat}
    (behind : ∀ {ks ls}, ks <:+ ls → measure ks ≤ measure ls)
    (inside : ∀ {l ls inner}, inner ∈ (Block.next l ls).1.inside →
      measure inner < measure (l :: ls))
    {depth : Nat} (ps : List Placed) (h : measure (lines ps) < depth) :
    blocksWithin depth (raws ps) = outcome (Block.elementsOf (lines ps)) := by
  induction depth generalizing ps with
  | zero => exact absurd h (Nat.not_lt_zero _)
  | succ depth ih =>
    have within : ReadsWithin (blocksWithin depth) (lines ps) := by
      rintro k ks suffix inner mem ys rfl
      refine ih ys ?_
      have less := inside mem
      have most := behind suffix
      omega
    rw [blocksWithin, scan_blocks List.drop_zero within]
    cases Block.elementsOf (lines ps) <;> rfl

/-- The written parts of the lines add to their size, but not to their weight. -/
theorem weight_le_size (ps : List Placed) : Line.weight (lines ps) ≤ size (raws ps) := by
  induction ps with
  | nil => exact Nat.le_refl _
  | cons p ps ih =>
    rw [size] at ih
    rw [lines_cons, raws_cons, Line.weight_cons, size, List.foldr_cons]
    simp only [Placed.raw, List.length_append]
    omega

/-- The loop writes the elements that the reader returns, and fails exactly where that does. -/
theorem elementsOf_eq (ps : List Placed) :
    elementsOf (raws ps) = outcome (Block.elementsOf (lines ps)) :=
  blocksWithin_eq Line.weight_le_of_suffix (fun {_ _ _} => (Block.suffix_and_lighter_of_next rfl).2 _)
    ps (Nat.lt_succ_of_le (weight_le_size ps))

end TierLint.Offsets
