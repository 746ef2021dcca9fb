import Mathlib.Data.List.Infix
import TierLint.Proofs.Block.QuoteMarkers
import TierLint.Proofs.Document.Origin

/-!
# Lists in documents

A list holds items with markers of one kind, it is as long as it can be, and it does not end with
blank lines (`Document.maximalLists_of_parse`). That it is as long as it can be shows in its
neighbours: two lists that only blank lines stand between have markers of different kinds.

A list or an item ends with a line that is not blank in the form in which the container around it
hands the line on (`Block.TakenFrom`). It shows in the text itself, too: the line with the last byte
of the node (`Line.IsLastBefore`) is not blank once the markers of the quotes around the node are
taken away (`Visit.EndsFilled`), since these markers have been moved aside on all lines but the
first, which holds the list marker (`Block.Placed.exists_takenFrom`).
-/

set_option autoImplicit false

namespace TierLint

open Element List Text

/-! ## The line at a byte -/

theorem LineEnding.isBlank_text (e : LineEnding) : Text.isBlank e.text = true := by
  cases e <;> decide

/-- The text is white space apart from the markers of that many quotes. -/
def Text.isBlankWithin (quotes : Nat) (t : Text) : Bool :=
  t.all (fun c => Unicode.isWhiteSpace c || c == '>') && decide (t.count '>' ≤ quotes)

/-- A blank line of a quote, and a quote inside the quote. -/
example : Text.isBlankWithin 1 "> ".toList = true ∧ Text.isBlankWithin 1 "> >".toList = false := by
  decide

theorem Text.isBlankWithin_eq_false_iff {quotes : Nat} {t : Text} :
    isBlankWithin quotes t = false ↔
      (∃ c ∈ t, Unicode.isWhiteSpace c = false ∧ c ≠ '>') ∨ quotes < t.count '>' := by
  rw [isBlankWithin, Bool.and_eq_false_iff, all_eq_false, decide_eq_false_iff_not, Nat.not_le]
  simp only [Bool.or_eq_true, beq_iff_eq, not_or, Bool.not_eq_true]

namespace Line

/-- The line has the last byte in front of byte `stop` of the text. -/
def IsLastBefore (t : Text) (stop : Nat) (l : Line) : Prop :=
  ∃ above below, ofText t = above ++ l :: below ∧
    byteLength (textOf above) < stop ∧ stop ≤ byteLength (textOf (above ++ [l]))

variable {l : Line} {above below ls : List Line} {t front content u : Text} {ending : LineEnding}

theorem textOf_append (ls ks : List Line) : textOf (ls ++ ks) = textOf ls ++ textOf ks :=
  flatMap_append

theorem textOf_singleton (l : Line) : textOf [l] = l.text := flatMap_singleton ..

/-- A beginning of some lines ends in one of them. -/
theorem exists_of_isPrefix (ne : u ≠ []) (h : u <+: textOf ls) :
    ∃ above l below v, ls = above ++ l :: below ∧ u = textOf above ++ v ∧ v ≠ [] ∧
      v <+: l.text := by
  induction ls generalizing u with
  | nil => exact absurd (prefix_nil.1 h) ne
  | cons l ls ih =>
    rw [textOf, flatMap_cons, ← textOf] at h
    rcases prefix_or_prefix_of_prefix h (prefix_append l.text _) with within | ⟨rest, rfl⟩
    · exact ⟨[], l, ls, u, rfl, rfl, ne, within⟩
    · rcases eq_or_ne rest [] with rfl | further
      · rw [append_nil] at ne ⊢
        exact ⟨[], l, ls, l.text, rfl, rfl, ne, prefix_rfl⟩
      · obtain ⟨above, k, below, v, rfl, rfl, found⟩ :=
          ih further ((prefix_append_right_inj l.text).1 h)
        exact ⟨l :: above, k, below, v, rfl, (append_assoc ..).symm, found⟩

/-- Lines in front of others end with a line feed. -/
theorem getLast?_of_cut (cut : Cut (above ++ l :: below)) (ne : above ≠ []) :
    (textOf above).getLast? = some '\n' := by
  induction above with
  | nil => exact absurd rfl ne
  | cons k above ih =>
    obtain ⟨-, -, -, last, cut⟩ := cut
    rw [textOf, flatMap_cons, ← textOf, getLast?_append]
    rcases eq_or_ne above [] with rfl | more
    · have ended : k.ending ≠ .none := fun none => cons_ne_nil _ _ (last none)
      rw [text, getLast?_append]
      cases ending : k.ending with
      | none => exact absurd ending ended
      | lf => rfl
      | crlf => rfl
    · rw [ih cut more]
      rfl

/-- The line feed of a line is its last character. -/
theorem lf_not_mem_of_append (hlf : '\n' ∉ content) {w : Text} (ne : u ≠ [])
    (h : content ++ ending.text = w ++ u) : '\n' ∉ w := by
  intro mem
  have early : '\n' ∈ (content ++ ending.text).dropLast := by
    rw [h, dropLast_append_of_ne_nil ne]
    exact mem_append_left _ mem
  cases ending with
  | none =>
    rw [LineEnding.text, append_nil] at early
    exact hlf (mem_of_mem_dropLast early)
  | lf =>
    rw [LineEnding.text, dropLast_concat] at early
    exact hlf early
  | crlf =>
    rw [LineEnding.text, dropLast_append_of_ne_nil (cons_ne_nil _ _)] at early
    rcases mem_append.1 early with mem | mem
    · exact hlf mem
    · cases mem_singleton.1 mem

/-- If a text ends in a line, the line has all content that the text ends with: it does not begin
within the content, since a line feed stands in front of it. -/
theorem suffix_of_append (cut : Cut (above ++ l :: below)) (ne : u ≠ []) (hlf : '\n' ∉ content)
    (h : textOf above ++ u = front ++ (content ++ ending.text)) : content ++ ending.text <:+ u := by
  have place := suffix_append front (content ++ ending.text)
  rw [← h] at place
  rcases suffix_or_suffix_of_suffix place (suffix_append (textOf above) u) with whole | ⟨w, eq⟩
  · exact whole
  · rw [← eq, ← append_assoc] at h
    have front := append_cancel_right h
    rcases w.eq_nil_or_concat' with rfl | ⟨init, d, rfl⟩
    · rw [← eq]
      exact suffix_rfl
    · have more : above ≠ [] := by
        rintro rfl
        rw [← append_assoc] at front
        exact append_ne_nil_of_right_ne_nil _ (cons_ne_nil d []) front.symm
      have last := getLast?_of_cut cut more
      rw [front, ← append_assoc, getLast?_concat] at last
      cases last
      have mem : '\n' ∈ init ++ ['\n'] := mem_append_right init (mem_singleton.2 rfl)
      exact absurd mem (lf_not_mem_of_append hlf ne eq.symm)

/-- If a text ends in a line, and with more than the markers of some quotes, then the line holds
more than these markers. -/
theorem isBlankWithin_eq_false_of_append {quotes : Nat} (cut : Cut (above ++ l :: below))
    (ne : u ≠ []) (within : u <+: l.text) (filled : Text.isBlankWithin quotes content = false)
    (hlf : '\n' ∉ content) (h : textOf above ++ u = front ++ (content ++ ending.text)) :
    Text.isBlankWithin quotes l.content = false := by
  have pending : l.pending = [] := pending_of_cut cut l (mem_append_right above mem_cons_self)
  have whole := suffix_of_append cut ne hlf h
  have part : content.Sublist (l.content ++ l.ending.text) := by
    rw [text, pending, nil_append] at within
    exact ((sublist_append_left _ _).trans whole.sublist).trans within.sublist
  -- the ending of the line adds nothing that counts
  rw [Text.isBlankWithin_eq_false_iff] at filled ⊢
  rcases filled with ⟨c, mem, ink, other⟩ | more
  · rcases mem_append.1 (part.subset mem) with found | found
    · exact .inl ⟨c, found, ink, other⟩
    · have white := all_eq_true.1 l.ending.isBlank_text c found
      rw [ink] at white
      cases white
  · have none : l.ending.text.count '>' = 0 := by cases l.ending <;> decide
    have count := part.count_le '>'
    rw [count_append, none, Nat.add_zero] at count
    exact .inr (more.trans_le count)

theorem textOf_ne_nil (init : List Line) {k : Line} (ne : k.pending ++ k.content ≠ []) :
    textOf (init ++ [k]) ≠ [] := by
  rw [textOf_append, textOf_singleton]
  exact append_ne_nil_of_right_ne_nil _ (append_ne_nil_of_left_ne_nil ne _)

/-- The line in which a part of a text ends, told by the last of the lines that make up the part. -/
theorem exists_isLastBefore {quotes : Nat} {init : List Line} {k : Line}
    (h : front ++ textOf (init ++ [k]) <+: t)
    (filled : Text.isBlankWithin quotes (k.pending ++ k.content) = false)
    (hlf : '\n' ∉ k.pending ++ k.content) :
    byteLength front < byteLength (front ++ textOf (init ++ [k])) ∧
      ∃ l, IsLastBefore t (byteLength (front ++ textOf (init ++ [k]))) l ∧
        Text.isBlankWithin quotes l.content = false := by
  have nonempty : k.pending ++ k.content ≠ [] := by
    intro none
    rw [none] at filled
    cases filled
  have part := textOf_ne_nil init nonempty
  have parts : front ++ textOf (init ++ [k]) =
      front ++ textOf init ++ (k.pending ++ k.content ++ k.ending.text) := by
    rw [textOf_append, textOf_singleton, text]
    exact (append_assoc ..).symm
  rw [← textOf_ofText t] at h
  obtain ⟨above, l, below, u, lines, eq, ne, within⟩ :=
    exists_of_isPrefix (append_ne_nil_of_right_ne_nil front part) h
  have cut := cut_ofText t
  rw [lines] at cut
  refine ⟨?_, l, ⟨above, below, lines, ?_, ?_⟩, ?_⟩
  · rw [byteLength_append]
    exact Nat.lt_add_of_pos_right (byteLength_pos part)
  · rw [eq, byteLength_append]
    exact Nat.lt_add_of_pos_right (byteLength_pos ne)
  · rw [eq, textOf_append, textOf_singleton, byteLength_append, byteLength_append]
    exact Nat.add_le_add_left (byteLength_le_of_isPrefix within) _
  · exact isBlankWithin_eq_false_of_append cut ne within filled hlf (eq.symm.trans parts)

end Line

/-- The visited element is not empty, and the last line of the text that it covers is not blank,
whatever quotes stand around the element: there is more in it than white space and the markers of
these quotes. -/
def Visit.EndsFilled (t : Text) (v : Visit) : Prop :=
  v.start < v.stop ∧ ∃ l, Line.IsLastBefore t v.stop l ∧
    Text.isBlankWithin (quotesAmong v.ancestors) l.content = false

/-- Lines from which a list or an item below some quotes is read end with more than the markers of
these quotes: the first one holds the list marker, and behind it these markers are moved aside. -/
theorem Block.TakenFrom.exists_last {lines ks : List Line} {e : Element} {quotes : Nat}
    (h : TakenFrom lines e ks) (quoted : InQuotes quotes ks) :
    ∃ init k, ks = init ++ [k] ∧
      Text.isBlankWithin quotes (k.pending ++ k.content) = false := by
  obtain ⟨first, rest, m, eq, marker⟩ := h.exists_marker
  obtain ⟨init, k, rfl, filled⟩ := h.endFilled
  refine ⟨init, k, rfl, Text.isBlankWithin_eq_false_iff.2 ?_⟩
  cases init with
  | nil =>
    obtain rfl : k = first := (cons.inj eq).1
    obtain ⟨c, behind, body, first⟩ := ListMarker.exists_cons_of_read? marker
    obtain ⟨ink, -, -, -, other⟩ := ListMarker.ne_of_mem_or_isDigit first
    have mem : c ∈ unindented k.content := body ▸ mem_cons_self
    exact .inl ⟨c, mem_append_right _ ((dropWhile_suffix _).subset mem), ink, other⟩
  | cons l init =>
    have markers := quoted k (mem_append_right init mem_cons_self)
    obtain ⟨c, mem, ink⟩ := all_eq_false.1 filled
    have ink : Unicode.isWhiteSpace c = false := Bool.eq_false_iff.2 ink
    by_cases marker : c = '>'
    · have own := count_pos_iff.2 (marker ▸ mem)
      rw [count_append]
      omega
    · exact .inl ⟨c, mem_append_right _ mem, ink, marker⟩

/-! ## Documents -/

namespace Document

variable {t : Text} {tree : Element} {v : Visit}

/-- Lines hold no line feeds in front of their endings, wherever parsing comes to. -/
theorem lf_not_mem_of_leadsTo {rest : List Line} (leads : Block.LeadsTo (body t) rest) :
    ∀ l ∈ rest, '\n' ∉ l.pending ++ l.content := by
  have advance {l : Line} (n : Nat) (h : '\n' ∉ l.pending ++ l.content) :
      '\n' ∉ (l.advance n).pending ++ (l.advance n).content := by
    rwa [Line.advance, append_assoc, take_append_drop]
  refine leads.forall_mem (fun _ => advance _) (fun n h mem => h ?_) (fun _ => advance _) ?_
  · exact mem_append_right _ (mem_of_mem_drop mem)
  · intro l hl
    have mem := (body_suffix t).subset hl
    rw [Line.pending_of_cut (Line.cut_ofText t) l mem]
    exact Line.lf_not_mem_of_cut (Line.cut_ofText t) l mem

/-- Where the nodes of a document stand, below how many quotes. -/
theorem placed_of_mem_nodesOf (h : parse t = .ok tree) {k : Kind} (hr : .root ≠ k)
    (hd : .document ≠ k) (hv : v ∈ tree.nodesOf k) :
    Block.Placed (body t) (quotesAmong v.ancestors) v.element := by
  obtain ⟨es, hes, rfl⟩ := parse_eq_ok_iff_body.1 h
  rw [nodesOf_tree hr hd] at hv
  refine of_mem_visitsFromAll (R := fun above => Block.Placed (body t) (quotesAmong above))
    Block.Placed.onward ?_ (mem_of_mem_filter hv)
  refine forall_mem_append.2 ⟨fun e he => ?_, ?_⟩
  · rw [frontMatter] at he
    split at he
    · rename_i f rest found
      rw [mem_singleton.1 he]
      refine .plain (.node (fun _ => rfl) fun x hx => ?_)
      exact f.every_children (fun _ node => by cases node) x hx
    · cases he
  · exact Block.placed_of_elementsOf (.refl _) (.zero _) hes

/-- The lines that a list or an item was read from are the text of the node, and end with more than
the markers of the quotes around it. -/
theorem exists_takenFrom (h : parse t = .ok tree) {k : Kind} (hk : k = .list ∨ k = .listItem)
    (hv : v ∈ tree.nodesOf k) :
    ∃ ks, Block.TakenFrom (body t) v.element ks ∧ Block.InQuotes (quotesAmong v.ancestors) ks := by
  obtain ⟨-, rfl, node⟩ := kind_of_mem_nodesOf hv
  refine (placed_of_mem_nodesOf h ?_ ?_ hv).exists_takenFrom node hk
  · rcases hk with hk | hk <;> rw [hk] <;> decide
  · rcases hk with hk | hk <;> rw [hk] <;> decide

/-- Lists and items end in lines that are not blank. -/
theorem endsFilled_of_mem_nodesOf (h : parse t = .ok tree) {k : Kind} (hk : k = .list ∨ k = .listItem)
    (hv : v ∈ tree.nodesOf k) : v.EndsFilled t := by
  obtain ⟨ks, taken, quoted⟩ := exists_takenFrom h hk hv
  obtain ⟨init, last, rfl, filled⟩ := taken.exists_last quoted
  obtain ⟨rest, leads, sub⟩ := taken.exists_leadsTo
  have hlf := lf_not_mem_of_leadsTo leads last (sub (mem_append_right init mem_cons_self))
  have whole : tree.text = t := by
    rw [text_eq_flatMap, (covers_of_parse h).flatMap_text, Line.textOf_ofText]
  rw [nodesOf_eq] at hv
  obtain ⟨front, start, place⟩ := exists_of_mem_nodesBehind hv
  rw [nil_append] at start place
  rw [nil_append, textOf, textOf, append_nil, whole, taken.text_eq] at place
  have stop : v.stop = byteLength (front ++ Line.textOf (init ++ [last])) := by
    rw [Visit.stop, start, Element.byteLength_eq, taken.text_eq, byteLength_append]
  rw [Visit.EndsFilled, stop, start]
  exact Line.exists_isLastBefore place filled hlf

/-- A list among the children of a node, and what stands behind it, are elements of a list that
parsing comes to and of the lines behind it. -/
theorem exists_item_of_children (h : parse t = .ok tree) (hv : v ∈ tree.visits)
    {front back : List Element} {xs : List Element}
    (eq : v.element.children = front ++ .node .list xs :: back) :
    ∃ l ls m, l.opener = .item m ∧ (Block.next l ls).1.tree = .ok (.node .list xs) ∧
      Block.elementsOf (Block.next l ls).2 = .ok back := by
  obtain ⟨l, ls, -, ok, behind⟩ := exists_block_of_children h hv eq rfl ⟨rfl, rfl, nofun, nofun⟩
  obtain ⟨inner, -, he⟩ := Block.tree_eq_ok_iff.1 ok
  obtain ⟨es, same⟩ := Block.kind_element he
  obtain ⟨m, opens⟩ := Block.opener_of_kind_eq_list (Element.node.inj same).1.symm
  exact ⟨l, ls, m, opens, ok, behind⟩

/-- The lists of a document hold items of one kind and are as long as they can be, up to the last
line that is not blank; so are their items. -/
structure MaximalLists (t : Text) (tree : Element) : Prop where
  /-- The items of a list have markers of one kind. -/
  homogeneous : ∀ v ∈ tree.nodesOf .list, ∃ kind, v.element.IsListOf kind
  /-- Two lists that at most blank lines stand between have markers of different kinds. -/
  maximal : ∀ v ∈ tree.visits, ∀ front xs between ys back,
    v.element.children = front ++ .node .list xs :: (between ++ .node .list ys :: back) →
    (∀ e ∈ between, e.kind = .blankLine) →
    ∃ kind kind', kind ≠ kind' ∧ (Element.node .list xs).IsListOf kind ∧
      (Element.node .list ys).IsListOf kind'
  /-- Of the lines that its container hands on, a list or an item takes none that is blank at the
  end. -/
  trimmed : ∀ k, k = .list ∨ k = .listItem → ∀ v ∈ tree.nodesOf k,
    ∃ ks, Block.TakenFrom (body t) v.element ks ∧ Line.EndFilled ks
  /-- The last line of the text that a list or an item covers is not blank without the markers of
  the quotes around it. -/
  filled : ∀ k, k = .list ∨ k = .listItem → ∀ v ∈ tree.nodesOf k, v.EndsFilled t

/-- **Maximal lists.** In the tree of a text, the items of a list have markers of one kind, two
lists that at most blank lines stand between have markers of different kinds, and no list or item
ends with a line that is blank where it stands, inside quotes and other items. -/
theorem maximalLists_of_parse (h : parse t = .ok tree) : MaximalLists t tree := by
  constructor
  · intro v hv
    obtain ⟨l, ls, -, kind, ok⟩ := exists_block_of_mem_nodesOf h hv ⟨rfl, rfl, nofun, nofun⟩
    obtain ⟨m, opens⟩ := Block.opener_of_kind_eq_list kind
    exact ⟨m.kind, Block.isListOf_of_tree opens ok⟩
  · intro v hv front xs between ys back eq blank
    obtain ⟨l, ls, m, opens, ok, behind⟩ := exists_item_of_children h hv eq
    obtain ⟨kind, other, second⟩ := Block.exists_kind_ne_of_blankLines opens behind blank rfl
    exact ⟨m.kind, kind, other, Block.isListOf_of_tree opens ok, second⟩
  · intro k hk v hv
    obtain ⟨ks, taken, -⟩ := exists_takenFrom h hk hv
    exact ⟨ks, taken, taken.endFilled⟩
  · intro k hk v hv
    exact endsFilled_of_mem_nodesOf h hk hv

/-- Two lists in a quote, with a blank line behind each. -/
theorem maximalLists_of_parse_quoted :
    MaximalLists "> - a\n>\n> + b\n>\n".toList (Document.tree [.node .blockQuote
      [.node .list [.node .listItem
        [.token .blockQuoteMarker ['>'], .token .whitespace [' '], .token .listMarker ['-'],
         .token .whitespace [' '],
         .node .paragraph [.token .text ['a'], .token .newline ['\n']]]],
       .node .blankLine [.token .blockQuoteMarker ['>'], .token .newline ['\n']],
       .node .list [.node .listItem
        [.token .blockQuoteMarker ['>'], .token .whitespace [' '], .token .listMarker ['+'],
         .token .whitespace [' '],
         .node .paragraph [.token .text ['b'], .token .newline ['\n']]]],
       .node .blankLine [.token .blockQuoteMarker ['>'], .token .newline ['\n']]]]) :=
  maximalLists_of_parse (by decide +kernel)

end Document

end TierLint
