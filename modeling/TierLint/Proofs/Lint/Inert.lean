import TierLint.Lint.Linter
import TierLint.Proofs.Document.Framed
import TierLint.Proofs.Lint.Correspondence

/-!
# Rules do not look into front matter and fenced code

Take two documents with the same lines behind their front matter and the same lines behind a fenced
code block, whatever the front matter and the code are. Every rule but the one on line lengths
reports the same on both, in the same columns, and in lines that differ by the lines of front matter
and code in front of them (`Document.check_framed`).

Both elements are inert (`Element.Inert`): they hold no node that is looked for and no prose, and
no text run goes on across them. So what is found stands in one of the two stretches that both
documents share, and its line is counted from the beginning of that stretch.
-/

set_option autoImplicit false

namespace TierLint

open Element

/-! ## Inert elements -/

/-- Rules find nothing inside the element, and no text run goes on across it. -/
structure Element.Inert (e : Element) : Prop where
  nodes : Every (fun e => e.isNode = true → e.kind.isSought = false) e
  ends : TextRun.effect e = .ends
  runs : ∀ above start, (TextRun.runsFrom above start e).filter (!·.inCode) = []

/-- A node without prose is inert if it ends text runs and holds nothing that rules look for. -/
theorem Element.inert_of_not_prose {k : Kind} {es : List Element}
    (nodes : Every (fun e => e.isNode = true → e.kind.isSought = false) (.node k es))
    (plain : Every (fun e => e.kind.isProse = false) (.node k es))
    (ends : TextRun.effect (.node k es) = .ends) : (Element.node k es).Inert where
  nodes := nodes
  ends := ends
  runs above start := by
    rw [TextRun.runsFrom, TextRun.runsFromAll_eq_nil _ _ (every_node.1 plain).2]
    rfl

theorem FrontMatter.inert_element (f : FrontMatter) : f.element.Inert :=
  inert_of_not_prose (f.every_element (fun _ node => by cases node) fun _ => rfl)
    (f.every_element (fun hk => hk) rfl) rfl

/-- All prose in a code block is code. -/
theorem FencedCode.inert_element (code : FencedCode) : code.element.Inert where
  nodes := code.every_element (fun _ node => by cases node) (fun _ node => by cases node)
    (fun _ hk _ => hk) fun _ => rfl
  ends := rfl
  runs above start := by
    rw [element, TextRun.runsFrom]
    refine List.filter_eq_nil_iff.2 fun r hr => ?_
    have below := TextRun.prefix_ancestors_of_mem hr
    have inCode : r.inCode = true :=
      List.any_eq_true.2 ⟨_, below.mem (List.mem_append_right _ List.mem_cons_self), rfl⟩
    rw [inCode]
    decide

namespace Element.Inert

variable {e : Element}

theorem nodesBehind_cons (inert : e.Inert) {k : Kind} (hk : k.isSought = true)
    (above : List Element) (b : Text) (es : List Element) :
    nodesBehind k above b (e :: es) = nodesBehind k above (b ++ e.text) es := by
  have none : nodesBehind k above b [e] = [] :=
    nodesBehind_eq_nil above b (List.forall_mem_singleton.2
      (inert.nodes.imp fun _ other node => Kind.ne_of_isSought hk (other node)))
  rw [← List.singleton_append, nodesBehind_append, none, textOf_cons, textOf_nil, List.append_nil]
  rfl

theorem proseRuns_append_cons (inert : e.Inert) (above : List Element) (b : Text)
    (es fs : List Element) :
    (TextRun.runsFromAll above (Text.byteLength b) none (es ++ e :: fs)).filter (!·.inCode) =
      (TextRun.runsFromAll above (Text.byteLength b) none es).filter (!·.inCode)
        ++ (TextRun.runsFromAll above (Text.byteLength (b ++ textOf es ++ e.text)) none fs).filter
            (!·.inCode) := by
  rw [TextRun.runsFromAll_append_cons inert.ends, List.filter_append, List.filter_append,
    inert.runs, List.append_nil]

end Element.Inert

/-! ## Stretches behind different texts -/

/-- The same text lies in front of both places, behind the texts `base` and `base'`. -/
def Behind (base base' b b' : Text) : Prop := ∃ u, b = base ++ u ∧ b' = base' ++ u

theorem tracks_behind (base base' : Text) : Tracks .strict (Behind base base') where
  same t := by
    rintro ⟨u, rfl, rfl⟩
    exact ⟨u ++ t, List.append_assoc .., List.append_assoc ..⟩
  filler free := by cases free
  filler' free := by cases free
  lineEnd free := by cases free

theorem Line.Cut.of_append {ls ks : List Line} (h : Cut (ls ++ ks)) : Cut ks := by
  induction ls with
  | nil => exact h
  | cons l ls ih => exact ih h.2.2.2.2

/-- Behind lines that have ended stands the beginning of the line that their number tells. -/
theorem Line.past_textOf {ls ks : List Line} (cut : Cut (ls ++ ks)) (more : ks ≠ []) {p : Position}
    (first : p.column = 1) : p.past (textOf ls) = ⟨p.line + ls.length, 1⟩ := by
  induction ls generalizing p with
  | nil =>
    rw [← first]
    rfl
  | cons l ls ih =>
    obtain ⟨pending, lf, -, last, rest⟩ := cut
    have here : p.past l.text = ⟨p.line + 1, 1⟩ := by
      have inside : (p.past l.content).line = p.line := by
        rw [Position.line_past, List.count_eq_zero_of_not_mem lf, Nat.add_zero]
      rw [text, pending, List.nil_append, Position.past_append]
      cases ending : l.ending with
      | none => exact absurd (last ending) (by simp [more])
      | lf => rw [LineEnding.text, Position.past_lf, inside]
      | crlf => rw [LineEnding.text, Position.past_crlf, inside]
    have cons : textOf (l :: ls) = l.text ++ textOf ls := rfl
    rw [cons, Position.past_append, here, ih rest rfl, List.length_cons, Nat.add_assoc,
      Nat.add_comm 1]

theorem Line.count_textOf {ls ks : List Line} (cut : Cut (ls ++ ks)) (more : ks ≠ []) :
    (textOf ls).count '\n' = ls.length := by
  have lines := congrArg Position.line (Line.past_textOf cut more (p := .start) rfl)
  rw [Position.line_past] at lines
  exact Nat.add_left_cancel lines

namespace Subject

variable {near : Position → Position → Prop} {s s' : Subject} {es : List Element}
variable {base base' : Text}
variable (ht : base ++ textOf es <+: s.text) (ht' : base' ++ textOf es <+: s'.text)
variable (hnear : ∀ u, u <+: textOf es →
  near (Position.start.past (base ++ u)) (Position.start.past (base' ++ u)))

include ht ht' hnear

/-- A stretch that two documents share holds the same nodes in both. -/
theorem nodesBehind_shared (k : Kind) (above above' : List Element) :
    List.Forall₂ (NodesLike .strict near s s') (nodesBehind k above base es)
      (nodesBehind k above' base' es) := by
  refine nodesBehind_like (tracks_behind base base') (.refl .strict false es) ?_ ht ht' ?_ k _ _
  · exact ⟨[], (List.append_nil _).symm, (List.append_nil _).symm⟩
  · rintro c c' hc - ⟨u, rfl, rfl⟩
    exact hnear u ((List.prefix_append_right_inj base).1 hc)

/-- A stretch that two documents share holds the same prose runs in both. -/
theorem proseRuns_shared {above above' : List Element}
    (code : above.any (·.kind.isCode) = above'.any (·.kind.isCode)) :
    List.Forall₂ (RunsLike near s s')
      ((TextRun.runsFromAll above (Text.byteLength base) none es).filter (!·.inCode))
      ((TextRun.runsFromAll above' (Text.byteLength base') none es).filter (!·.inCode)) := by
  refine proseRunsFromAll_like (tracks_behind base base') (.refl .strict false es) ?_ ht ht' ?_ code
  · exact ⟨[], (List.append_nil _).symm, (List.append_nil _).symm⟩
  · rintro c c' hc - ⟨u, rfl, rfl⟩
    exact hnear u ((List.prefix_append_right_inj base).1 hc)

end Subject

namespace Document

variable {near : Position → Position → Prop} {e e' g g' : Element} {as bs : List Element}
variable {t t' : Text}

/-- The nodes that are looked for stand in the stretches behind inert elements. -/
theorem nodesOf_around_inert (he : e.Inert) (hg : g.Inert) {k : Kind} (hk : k.isSought = true) :
    (tree (e :: (as ++ g :: bs))).nodesOf k =
      nodesBehind k (above (e :: (as ++ g :: bs))) e.text as
        ++ nodesBehind k (above (e :: (as ++ g :: bs))) (e.text ++ textOf as ++ g.text) bs := by
  rw [nodesOf_tree (Kind.ne_of_isSought hk rfl) (Kind.ne_of_isSought hk rfl),
    he.nodesBehind_cons hk, List.nil_append, nodesBehind_append, hg.nodesBehind_cons hk]

/-- The prose runs stand there as well. -/
theorem proseRuns_around_inert (he : e.Inert) (hg : g.Inert) :
    (tree (e :: (as ++ g :: bs))).textRuns.filter (!·.inCode) =
      (TextRun.runsFromAll (above (e :: (as ++ g :: bs))) (Text.byteLength e.text) none as).filter
          (!·.inCode)
        ++ (TextRun.runsFromAll (above (e :: (as ++ g :: bs)))
            (Text.byteLength (e.text ++ textOf as ++ g.text)) none bs).filter (!·.inCode) := by
  have first := he.proseRuns_append_cons (above (e :: (as ++ g :: bs))) [] [] (as ++ g :: bs)
  rw [textRuns_tree]
  refine first.trans ?_
  rw [hg.proseRuns_append_cons]
  rfl

/-- Documents that differ in two inert elements correspond, if the positions in the stretches behind
these are related. -/
theorem corresponds_of_inert (he : e.Inert) (he' : e'.Inert) (hg : g.Inert) (hg' : g'.Inert)
    (ht : textOf (e :: (as ++ g :: bs)) = t) (ht' : textOf (e' :: (as ++ g' :: bs)) = t')
    (front : ∀ u, u <+: textOf as →
      near (Position.start.past (e.text ++ u)) (Position.start.past (e'.text ++ u)))
    (back : bs ≠ [] → ∀ u, near (Position.start.past (e.text ++ textOf as ++ g.text ++ u))
      (Position.start.past (e'.text ++ textOf as ++ g'.text ++ u)))
    (l : Linter) (path : Text) :
    Subject.Corresponds .strict near (l.subject path t (tree (e :: (as ++ g :: bs))))
      (l.subject path t' (tree (e' :: (as ++ g' :: bs)))) := by
  have shared : e.text ++ textOf as <+: t ∧ e'.text ++ textOf as <+: t' :=
    ⟨⟨g.text ++ textOf bs, by simp [← ht]⟩, ⟨g'.text ++ textOf bs, by simp [← ht']⟩⟩
  have shared' : e.text ++ textOf as ++ g.text ++ textOf bs <+: t ∧
      e'.text ++ textOf as ++ g'.text ++ textOf bs <+: t' :=
    ⟨⟨[], by simp [← ht]⟩, ⟨[], by simp [← ht']⟩⟩
  refine ⟨rfl, rfl, rfl, fun free => (by cases free), fun {k} hk => ?_, ?_⟩
  · rw [Linter.subject, Linter.subject, nodesOf_around_inert he hg hk,
      nodesOf_around_inert he' hg' hk]
    apply List.rel_append
    · exact Subject.nodesBehind_shared shared.1 shared.2 front k _ _
    · by_cases none : bs = []
      · subst none
        exact .nil
      · exact Subject.nodesBehind_shared shared'.1 shared'.2 (fun u _ => back none u) k _ _
  · rw [Subject.proseRuns, Subject.proseRuns, Linter.subject, Linter.subject,
      proseRuns_around_inert he hg, proseRuns_around_inert he' hg']
    apply List.rel_append
    · apply Subject.proseRuns_shared shared.1 shared.2 front
      rfl
    · by_cases none : bs = []
      · subst none
        exact .nil
      · apply Subject.proseRuns_shared shared'.1 shared'.2 fun u _ => back none u
        rfl

/-! ## Framed documents -/

/-- Positions in the same column, in lines that differ by the numbers of lines of front matter and
of code in front of them. Both stand behind the front matter, and both in front of the code or both
behind it. -/
inductive Shifted (metadata metadata' front code code' : Nat) (p q : Position) : Prop
  | beforeCode : p.column = q.column → metadata + 2 < p.line → p.line ≤ metadata + front + 3 →
      q.line + metadata = p.line + metadata' → Shifted metadata metadata' front code code' p q
  | behindCode : p.column = q.column → metadata + front + code + 4 < p.line →
      q.line + metadata + code = p.line + metadata' + code' →
      Shifted metadata metadata' front code code' p q

/-- Behind lines of a document in front of other lines, positions count from the lines' number. -/
theorem past_lines_append {ls ks : List Line} (cut : Line.Cut (ls ++ ks)) (more : ks ≠ [])
    (u : Text) : Position.start.past (Line.textOf ls ++ u) =
      ⟨ls.length + 1 + u.count '\n', (Position.start.past u).column⟩ := by
  have moved := Position.past_eq (p := ⟨1 + ls.length, 1⟩) (q := .start) rfl u
  rwa [Position.past_append, Line.past_textOf cut more rfl, Nat.add_comm ls.length]

variable {metadata metadata' front code code' back : List Line}

/-- A framed document has two inert elements. Positions behind the first are in the lines behind the
front matter, and positions behind the second in the lines behind the code. -/
theorem Framed.positions (h : Framed (Line.ofText t) metadata front code back) :
    ∃ e g : Element, e.Inert ∧ g.Inert ∧
      (∀ es, elements (Line.ofText t) = .ok es ↔ ∃ as bs, Block.elementsOf front = .ok as ∧
        Block.elementsOf back = .ok bs ∧ es = e :: (as ++ g :: bs)) ∧
      ∀ as bs, Block.elementsOf front = .ok as → Block.elementsOf back = .ok bs →
        (∀ u, u <+: textOf as → u.count '\n' ≤ front.length ∧ Position.start.past (e.text ++ u) =
          ⟨metadata.length + 3 + u.count '\n', (Position.start.past u).column⟩) ∧
        (bs ≠ [] → ∀ u, Position.start.past (e.text ++ textOf as ++ g.text ++ u) =
          ⟨metadata.length + front.length + code.length + 5 + u.count '\n',
            (Position.start.past u).column⟩) := by
  obtain ⟨f, c, hf, hc, lines, parsed⟩ := h.parts
  have cut := Line.cut_ofText t
  rw [lines] at cut
  refine ⟨f.element, c.element, f.inert_element, c.inert_element, parsed, fun as bs has hbs => ?_⟩
  have text : textOf as = Line.textOf front := Block.textOf_of_elementsOf has
  rw [f.text_element, c.text_element, text]
  constructor
  · intro u hu
    have rest := Line.Cut.of_append cut
    refine ⟨?_, ?_⟩
    · rw [← Line.count_textOf rest (by simp [FencedCode.lines])]
      exact hu.sublist.count_le '\n'
    · rw [past_lines_append cut (by simp [FencedCode.lines]), hf]
  · intro ne u
    have more : back ≠ [] := by
      rintro rfl
      rw [Block.elementsOf_nil] at hbs
      cases hbs
      exact ne rfl
    have whole : Line.textOf f.lines ++ Line.textOf front ++ Line.textOf c.lines =
        Line.textOf (f.lines ++ front ++ c.lines) := by
      simp [Line.textOf]
    rw [whole, past_lines_append (by simpa using cut) more]
    congr 1
    simp only [List.length_append, hf, hc]
    omega

/-- **Front matter and code are inert.** Of two documents that differ only in what is inside their
front matter and inside one block of fenced code, either both are parsed or none, and each rule but
the one on line lengths finds the same in both: as many diagnostics, with the same codes,
severities, messages and columns, in lines that are shifted by the lines of front matter and code in
front of them. -/
theorem check_framed (h : Framed (Line.ofText t) metadata front code back)
    (h' : Framed (Line.ofText t') metadata' front code' back) :
    ((∃ tree, parse t = .ok tree) ↔ ∃ tree', parse t' = .ok tree') ∧
      ∀ tree tree', parse t = .ok tree → parse t' = .ok tree' →
        ∀ (l : Linter) (path : Text) (r : Rule), r ≠ .lineLength →
          List.Forall₂
            (Diagnostic.Like (Shifted metadata.length metadata'.length front.length code.length
              code'.length))
            (r.check (l.subject path t tree)) (r.check (l.subject path t' tree')) := by
  obtain ⟨e, g, he, hg, parsed, positions⟩ := h.positions
  obtain ⟨e', g', he', hg', parsed', positions'⟩ := h'.positions
  constructor
  · rw [h.exists_parse_iff, h'.exists_parse_iff]
  · intro tree tree' htree htree' l path r hr
    obtain ⟨es, hes, rfl⟩ := parse_eq_ok_iff.1 htree
    obtain ⟨es', hes', rfl⟩ := parse_eq_ok_iff.1 htree'
    have ht := textOf_of_elements hes
    have ht' := textOf_of_elements hes'
    obtain ⟨as, bs, has, hbs, rfl⟩ := (parsed es).1 hes
    obtain ⟨as', bs', has', hbs', rfl⟩ := (parsed' es').1 hes'
    obtain rfl : as = as' := Except.ok.inj (has.symm.trans has')
    obtain rfl : bs = bs' := Except.ok.inj (hbs.symm.trans hbs')
    obtain ⟨before, behind⟩ := positions as bs has hbs
    obtain ⟨before', behind'⟩ := positions' as bs has hbs
    refine Subject.Corresponds.check (corresponds_of_inert he he' hg hg' ht ht' (fun u hu => ?_)
      (fun ne u => ?_) l path) hr
    · obtain ⟨inside, place⟩ := before u hu
      obtain ⟨-, place'⟩ := before' u hu
      rw [place, place']
      refine .beforeCode rfl ?_ ?_ ?_ <;> dsimp only <;> omega
    · rw [behind ne u, behind' ne u]
      refine .behindCode rfl ?_ ?_ <;> dsimp only <;> omega

/-- Two documents whose front matter and code hold different numbers of lines, with hedging in all
of them. -/
theorem check_framed_modal :
    let front : List Line := [⟨[], "May".toList, .lf⟩, ⟨[], [], .lf⟩]
    let back : List Line := [⟨[], "- might".toList, .none⟩]
    let t := "---\nx: may\n---\nMay\n\n```\ncould\n```\n- might".toList
    let t' := "---\r\n---\nMay\n\n```\n\n~~~\n# may\n```\n- might".toList
    Framed (Line.ofText t) [⟨[], "x: may".toList, .lf⟩] front [⟨[], "could".toList, .lf⟩] back ∧
      Framed (Line.ofText t') [] front
        [⟨[], [], .lf⟩, ⟨[], "~~~".toList, .lf⟩, ⟨[], "# may".toList, .lf⟩] back ∧
      ∃ tree tree', parse t = .ok tree ∧ parse t' = .ok tree' ∧
        ∀ (l : Linter) (path : Text) (r : Rule), r ≠ .lineLength →
          List.Forall₂ (Diagnostic.Like (Shifted 1 0 2 1 3))
            (r.check (l.subject path t tree)) (r.check (l.subject path t' tree')) := by
  have hfront : Block.elementsOf [⟨[], "May".toList, .lf⟩, ⟨[], [], .lf⟩] = .ok
      [.node .paragraph [.token .text "May".toList, .token .newline ['\n']],
       .node .blankLine [.token .newline ['\n']]] := by decide +kernel
  have hback : Block.elementsOf [⟨[], "- might".toList, .none⟩] = .ok
      [.node .list [.node .listItem [.token .listMarker ['-'], .token .whitespace [' '],
        .node .paragraph [.token .text "might".toList]]]] := by decide +kernel
  intro front back t t'
  have blank : front = [] ∨ EndsBlank front := .inr ⟨[⟨[], "May".toList, .lf⟩], _, rfl, rfl⟩
  have shut : ∀ es e, Block.elementsOf front = .ok es → es.getLast? = some e →
      e.isOpenFence = false := by
    intro es e h last
    cases hfront.symm.trans h
    cases last
    rfl
  have framed : Framed (Line.ofText t) [⟨[], "x: may".toList, .lf⟩] front
      [⟨[], "could".toList, .lf⟩] back := by
    refine ⟨⟨⟨[], "---".toList, .lf⟩, ⟨[], "---".toList, .lf⟩, ⟨[], "```".toList, .lf⟩,
      ⟨[], "```".toList, .lf⟩, rfl, rfl, rfl, rfl, ?_⟩, ?_, blank, shut, ?_⟩
    · rfl
    · decide
    · decide
  have framed' : Framed (Line.ofText t') [] front
      [⟨[], [], .lf⟩, ⟨[], "~~~".toList, .lf⟩, ⟨[], "# may".toList, .lf⟩] back := by
    refine ⟨⟨⟨[], "---".toList, .crlf⟩, ⟨[], "---".toList, .lf⟩, ⟨[], "```".toList, .lf⟩,
      ⟨[], "```".toList, .lf⟩, rfl, rfl, rfl, rfl, ?_⟩, ?_, blank, shut, ?_⟩
    · rfl
    · decide
    · decide
  have both := check_framed framed framed'
  have sizes : front.length = 2 := rfl
  simp only [List.length_cons, List.length_nil, sizes, Nat.zero_add, Nat.reduceAdd] at both
  obtain ⟨tree, parsed⟩ := framed.exists_parse_iff.2 ⟨⟨_, hfront⟩, _, hback⟩
  obtain ⟨tree', parsed'⟩ := both.1.1 ⟨tree, parsed⟩
  exact ⟨framed, framed', tree, tree', parsed, parsed', both.2 tree tree' parsed parsed'⟩

end Document

end TierLint
