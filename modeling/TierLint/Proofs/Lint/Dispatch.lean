import TierLint.Lint.Linter
import TierLint.Proofs.Block.Shape
import TierLint.Proofs.Lint.Position

/-!
# What a linter reports, and where

A linter reports what its rules report, one rule behind the other, and a rule reports on documents
of its tier only. What one rule reports at a place of its own is listed in the order of the text:
every location is a stretch of the text, carries the position where that stretch begins, and begins
behind the one before it (`Linter.inspect_dispatch`).

Rules find places in three ways. Nodes and text runs are listed in document order by the searches
(`Document.locates_nodes`, `Document.locates_runs`); overlong lines are measured on the raw text
(`LineLength.locates_locations`).
-/

set_option autoImplicit false

namespace TierLint

open Element List

/-- The locations are stretches of the text with the positions where they begin, one behind the
other. -/
structure Text.Locates (t : Text) (ls : List Location) : Prop where
  stretch : ∀ l ∈ ls, t.IsStretch l.start l.stop
  position : ∀ l ∈ ls, l = Location.ofRange t l.start l.stop
  sorted : ls.Pairwise (·.start < ·.start)

namespace Text.Locates

variable {t : Text}

theorem nil (t : Text) : t.Locates [] := ⟨forall_mem_nil _, forall_mem_nil _, .nil⟩

/-- Ranges that are stretches in their order. -/
theorem of_map {α : Type} {start stop : α → Nat} {xs : List α}
    (stretch : ∀ x ∈ xs, t.IsStretch (start x) (stop x))
    (sorted : xs.Pairwise fun x y => start x < start y) :
    t.Locates (xs.map fun x => Location.ofRange t (start x) (stop x)) :=
  ⟨forall_mem_map.2 stretch, forall_mem_map.2 fun _ _ => rfl, pairwise_map.2 sorted⟩

theorem append {ls ls' : List Location} (h : t.Locates ls) (h' : t.Locates ls')
    (before : ∀ l ∈ ls, ∀ l' ∈ ls', l.start < l'.start) : t.Locates (ls ++ ls') :=
  ⟨forall_mem_append.2 ⟨h.stretch, h'.stretch⟩, forall_mem_append.2 ⟨h.position, h'.position⟩,
    pairwise_append.2 ⟨h.sorted, h'.sorted, before⟩⟩

end Text.Locates

/-! ## Nodes and runs -/

namespace Document

variable {t : Text} {es : List Element}

section Parsed

variable (h : elements (Line.ofText t) = .ok es)

include h

/-- A node that rules look for is a stretch of the text. -/
theorem isStretch_of_mem_nodesOf {k : Kind} (hk : k.isSought = true) :
    ∀ v ∈ (tree es).nodesOf k, t.IsStretch v.start v.stop := by
  intro v hv
  rw [nodesOf_tree (Kind.ne_of_isSought hk rfl) (Kind.ne_of_isSought hk rfl)] at hv
  obtain ⟨c, start, front⟩ := exists_of_mem_nodesBehind hv
  obtain ⟨node, kind⟩ := kind_of_mem_nodesBehind hv
  have sound := (every_nodesBehind k _ _ (sound_of_elements h) v hv).self
  have ne := sound.text_ne_nil node (kind ▸ hk)
  rw [textOf_of_elements h, nil_append, nil_append] at front
  rw [Visit.stop, byteLength_eq, start, nil_append, ← Text.byteLength_append]
  exact .of_isPrefix ne front

/-- Paragraphs, and strong emphasis, start one behind the other. -/
theorem pairwise_nodesOf {k : Kind} (hk : k = .strong ∨ k = .paragraph) :
    ((tree es).nodesOf k).Pairwise fun v w => v.start < w.start := by
  have sought : k.isSought = true := by rcases hk with rfl | rfl <;> rfl
  have leads : ∀ e ∈ es, Every (Leads k) e := by
    intro e he
    refine (sound_of_elements h e he).imp fun e sound => ?_
    rcases hk with rfl | rfl
    · exact sound.leads_strong
    · exact sound.leads_paragraph
  rw [nodesOf_tree (Kind.ne_of_isSought sought rfl) (Kind.ne_of_isSought sought rfl)]
  refine (pairwise_nodesBehind leads).imp_of_mem fun {v w} hv _ order => order ?_
  obtain ⟨node, kind⟩ := kind_of_mem_nodesBehind hv
  exact (every_nodesBehind k _ _ (sound_of_elements h) v hv).self.text_ne_nil node (kind ▸ sought)

/-- Text runs are stretches of the text, one behind the other. -/
theorem inOrder_textRuns : TextRun.InOrder 0 t (tree es).textRuns := by
  have runs : TextRun.InOrder 0 ([] ++ textOf es)
      (TextRun.runsFromAll (above es) (Text.byteLength []) none es) :=
    TextRun.inOrder_runsFromAll (sound_of_elements h) .none (Nat.le_refl 0)
  rw [nil_append, textOf_of_elements h] at runs
  rwa [textRuns_tree]

end Parsed

end Document

/-! ## Overlong lines -/

namespace LineLength

/-- A line is the beginning of its raw line. -/
theorem withoutReturn_isPrefix (raw : Text) : withoutReturn raw <+: raw := by
  rw [withoutReturn]
  split
  · exact dropLast_prefix raw
  · exact prefix_refl raw

theorem overflow?_eq_some {limit : Nat} {line excess : Text}
    (h : overflow? limit line = some excess) :
    line = line.take limit ++ excess ∧ excess ≠ [] ∧ (line.take limit).length = limit := by
  have rest : line.drop limit = excess ∧ excess ≠ [] := by
    unfold overflow? at h
    split at h
    · cases h
    · rename_i ne
      cases h
      exact ⟨rfl, ne⟩
  obtain ⟨rfl, ne⟩ := rest
  refine ⟨(take_append_drop limit line).symm, ne, ?_⟩
  rw [length_take, Nat.min_eq_left]
  rw [Ne, drop_eq_nil_iff] at ne
  omega

/-- What is too long of one raw line behind the text `b`. -/
theorem locates_overflow {t b raw excess : Text} {limit number : Nat} (front : b ++ raw <+: t)
    (lf : '\n' ∉ raw) (here : Position.start.past b = ⟨number, 1⟩)
    (h : overflow? limit (withoutReturn raw) = some excess) :
    let stop := Text.byteLength b + Text.byteLength (withoutReturn raw)
    t.Locates [⟨⟨number, limit + 1⟩, stop - Text.byteLength excess, stop⟩] ∧
      Text.byteLength b ≤ stop - Text.byteLength excess ∧
      stop - Text.byteLength excess < Text.byteLength b + Text.byteLength raw + 1 := by
  obtain ⟨cut, ne, length⟩ := overflow?_eq_some h
  have line := withoutReturn_isPrefix raw
  have size := Text.byteLength_le_of_isPrefix line
  generalize (withoutReturn raw).take limit = start at cut length
  rw [cut] at line size ⊢
  have lfStart : '\n' ∉ start := fun mem => lf (line.subset (mem_append_left _ mem))
  have whole : b ++ start ++ excess <+: t := by
    rw [append_assoc]
    exact ((prefix_append_right_inj b).2 line).trans front
  have range : Text.byteLength b + Text.byteLength (start ++ excess) - Text.byteLength excess =
      Text.byteLength (b ++ start) := by
    rw [Text.byteLength_append, Text.byteLength_append]
    omega
  have position : Position.ofOffset t (Text.byteLength (b ++ start)) = ⟨number, limit + 1⟩ := by
    rw [Position.ofOffset_of_isPrefix ((prefix_append ..).trans whole), Position.past_append, here,
      Position.past_of_lf_not_mem lfStart, length, Nat.add_comm 1]
  intro stop
  have stop_eq : stop = Text.byteLength (b ++ start ++ excess) := by
    rw [append_assoc, Text.byteLength_append]
  refine ⟨⟨forall_mem_singleton.2 ?_, forall_mem_singleton.2 ?_, pairwise_singleton ..⟩, ?_, ?_⟩
  · dsimp only
    rw [range, stop_eq]
    exact .of_isPrefix ne whole
  · rw [Location.ofRange, range, position]
  · rw [range, Text.byteLength_append]
    omega
  · omega

/-- The overlong lines of raw lines that stand behind the text `b`. -/
theorem locates_overlong {t b : Text} {raws : List Text} {limit number : Nat}
    (front : b ++ ['\n'].intercalate raws <+: t) (lf : ∀ raw ∈ raws, '\n' ∉ raw)
    (here : Position.start.past b = ⟨number, 1⟩) (inFence : Bool) :
    t.Locates (overlong limit number (Text.byteLength b) inFence raws) ∧
      ∀ l ∈ overlong limit number (Text.byteLength b) inFence raws,
        Text.byteLength b ≤ l.start := by
  induction raws generalizing b number inFence with
  | nil => exact ⟨.nil t, forall_mem_nil _⟩
  | cons raw rest ih =>
    have frontRaw : b ++ raw <+: t := by
      refine IsPrefix.trans ?_ front
      cases rest <;> simp [intercalate_cons_cons]
    have lfRaw := lf raw mem_cons_self
    -- the lines behind this one stand behind its line feed
    have others (inFence : Bool) :
        t.Locates (overlong limit (number + 1) (Text.byteLength b + Text.byteLength raw + 1) inFence
          rest) ∧
        ∀ l ∈ overlong limit (number + 1) (Text.byteLength b + Text.byteLength raw + 1) inFence
          rest, Text.byteLength b + Text.byteLength raw + 1 ≤ l.start := by
      cases rest with
      | nil => exact ⟨.nil t, forall_mem_nil _⟩
      | cons next rest =>
        have there : Position.start.past (b ++ raw ++ ['\n']) = ⟨number + 1, 1⟩ := by
          rw [Position.past_append, Position.past_append, here,
            Position.past_of_lf_not_mem lfRaw, Position.past_lf]
        have behind := ih (by simpa [intercalate_cons_cons] using front)
          (fun raw hraw => lf raw (mem_cons_of_mem _ hraw)) there inFence
        have size : Text.byteLength (b ++ raw ++ ['\n']) =
            Text.byteLength b + Text.byteLength raw + 1 := by
          rw [Text.byteLength_append, Text.byteLength_append]
          rfl
        rwa [size] at behind
    have further (inFence : Bool) := fun l hl => Nat.le_trans
      (Nat.le_add_right (Text.byteLength b) (Text.byteLength raw + 1)) ((others inFence).2 l hl)
    rw [overlong]
    dsimp only
    split
    · exact ⟨(others _).1, further _⟩
    · split
      · exact ⟨(others _).1, further _⟩
      · cases excess : overflow? limit (withoutReturn raw) with
        | none => exact ⟨(others _).1, further _⟩
        | some excess_ =>
          obtain ⟨located, least, most⟩ := locates_overflow frontRaw lfRaw here excess
          refine ⟨located.append (others _).1 fun l hl l' hl' => ?_,
            forall_mem_append.2 ⟨forall_mem_singleton.2 least, further _⟩⟩
          obtain rfl := mem_singleton.1 hl
          exact Nat.lt_of_lt_of_le most ((others _).2 l' hl')

theorem locates_locations (limit : Nat) (t : Text) : t.Locates (locations limit t) := by
  have whole := Text.intercalate_splitOn '\n' t
  refine (locates_overlong (b := []) ?_ (fun raw => Text.not_mem_of_mem_splitOn) rfl false).1
  rw [whole]
  exact prefix_refl t

end LineLength

/-! ## Rules -/

namespace Rule

theorem locations_map {α : Type} (xs : List α) (locate : α → Location) (message : Text) :
    (xs.map fun x => Finding.mk (some (locate x)) message).filterMap (·.location?) =
      xs.map locate := by
  rw [filterMap_map]
  exact congrFun filterMap_eq_map xs

theorem exists_of_firstInversion? {last : Nat} {ranked : List (Nat × Visit)} {v : Visit}
    (h : firstInversion? last ranked = some v) : ∃ i, (i, v) ∈ ranked := by
  induction ranked generalizing last with
  | nil => cases h
  | cons x ranked ih =>
    obtain ⟨i, w⟩ := x
    rw [firstInversion?] at h
    split at h
    · cases h
      exact ⟨i, mem_cons_self⟩
    · obtain ⟨j, hj⟩ := ih h
      exact ⟨j, mem_cons_of_mem _ hj⟩

theorem mem_of_mem_rankedHeadings {terms : List Text} {headings : List (Visit × Text)} {i : Nat}
    {v : Visit} (h : (i, v) ∈ rankedHeadings terms headings) : ∃ term, (v, term) ∈ headings := by
  obtain ⟨⟨w, term⟩, hw, found⟩ := mem_filterMap.1 h
  obtain ⟨j, -, eq⟩ := Option.map_eq_some_iff.1 found
  cases eq
  exact ⟨term, hw⟩

variable {l : Linter} {path t : Text} {es : List Element}

section Parsed

variable (h : Document.elements (Line.ofText t) = .ok es)

include h

/-- At most the first heading out of order is reported at a place. -/
theorem locates_headingOrder :
    t.Locates ((headingOrderFindings (l.subject path t (Document.tree es))).filterMap
      (·.location?)) := by
  rw [headingOrderFindings, filterMap_append, locations_map]
  have missing : ∀ (terms : List Text) (message : Text), (if terms.isEmpty then []
      else [Finding.mk none message]).filterMap (·.location?) = [] := by
    intro terms message
    split <;> rfl
  rw [missing, append_nil]
  cases inversion : firstInversion? 0 (rankedHeadings _ (l.subject path t _).headings) with
  | none => exact .nil t
  | some v =>
    obtain ⟨i, ranked⟩ := exists_of_firstInversion? inversion
    obtain ⟨term, heading⟩ := mem_of_mem_rankedHeadings ranked
    obtain ⟨w, hw, eq⟩ := mem_map.1 heading
    cases eq
    have stretch := Document.isStretch_of_mem_nodesOf h (k := .heading) rfl v hw
    exact ⟨forall_mem_singleton.2 stretch, forall_mem_singleton.2 rfl, pairwise_singleton ..⟩

theorem locates_paragraphFindings (flagged : Visit × Text → Bool) (message : Text) :
    t.Locates ((paragraphFindings (l.subject path t (Document.tree es)) flagged message).filterMap
      (·.location?)) := by
  have paragraphs := Document.pairwise_nodesOf h (k := .paragraph) (.inr rfl)
  have shape : paragraphFindings (l.subject path t (Document.tree es)) flagged message =
      ((l.subject path t (Document.tree es)).paragraphs.filter flagged).map fun x =>
        ⟨some (Location.ofRange t x.1.start x.1.stop), message⟩ := rfl
  rw [shape, locations_map]
  refine .of_map (fun x hx => ?_) ?_
  · obtain ⟨v, hv, rfl⟩ := mem_map.1 (mem_of_mem_filter (mem_of_mem_filter hx))
    exact Document.isStretch_of_mem_nodesOf h rfl v hv
  · have sorted : (((Document.tree es).nodesOf .paragraph).map fun v =>
        (v, Text.trim v.element.prose)).Pairwise fun x y => x.1.start < y.1.start :=
      pairwise_map.2 paragraphs
    exact (sorted.filter _).filter _

theorem locates_runFindings (flagged : Text → Bool) (message : Text) :
    t.Locates ((runFindings (l.subject path t (Document.tree es)) flagged message).filterMap
      (·.location?)) := by
  have runs := Document.inOrder_textRuns h
  rw [runFindings, locations_map]
  refine .of_map (fun r hr => ?_) ?_
  · exact runs.stretch r (mem_of_mem_filter (mem_of_mem_filter hr))
  · exact (runs.sorted.filter _).filter _

theorem locates_findings (r : Rule) :
    t.Locates ((r.findings (l.subject path t (Document.tree es))).filterMap (·.location?)) := by
  cases r with
  | headingOrder => exact locates_headingOrder h
  | noStrong =>
    rw [findings, noStrongFindings, locations_map]
    exact .of_map (Document.isStretch_of_mem_nodesOf h rfl) (Document.pairwise_nodesOf h (.inl rfl))
  | noEmoji => exact locates_runFindings h _ _
  | noModalVerbs => exact locates_runFindings h _ _
  | noNarrative => exact locates_paragraphFindings h _ _
  | lineLength =>
    rw [findings, lineLengthFindings, locations_map, map_id']
    exact LineLength.locates_locations _ t
  | moderateHeadings =>
    rw [findings, moderateHeadingsFindings]
    split <;> exact .nil t
  | moderateMarkdown => exact locates_paragraphFindings h _ _
  | lightMarkdown => exact locates_paragraphFindings h _ _

theorem locates_check (r : Rule) :
    t.Locates ((r.check (l.subject path t (Document.tree es))).filterMap (·.location?)) := by
  rw [check]
  split
  · rw [filterMap_map]
    exact locates_findings h r
  · exact .nil t

end Parsed

/-- On a document of its tier a rule reports all it finds. -/
theorem check_eq {r : Rule} {s : Subject} (h : s.tier = r.tier) :
    r.check s = (r.findings s).map r.report := if_pos h

/-- What a rule reports belongs to it, and to a document of its tier. -/
theorem of_mem_check {r : Rule} {s : Subject} {d : Diagnostic} (h : d ∈ r.check s) :
    s.tier = r.tier ∧ d.code = r.name ∧ d.severity = s.tier.severity := by
  rw [check] at h
  split at h
  · rename_i tier
    obtain ⟨f, -, rfl⟩ := mem_map.1 h
    exact ⟨tier, rfl, congrArg Tier.severity tier.symm⟩
  · cases h

theorem tier_ne_none (r : Rule) : r.tier ≠ .none := by
  cases r <;> exact Tier.noConfusion

end Rule

theorem Tier.severity_eq_error_iff (tier : Tier) : tier.severity = .error ↔ tier = .strict := by
  cases tier <;> simp [Tier.severity]

namespace Linter

/-- The linter with one rule. -/
def only (l : Linter) (r : Rule) : Linter := { l with rules := [r] }

variable (l : Linter) (path : Text) {t : Text}

theorem inspect_only (tree : Element) (r : Rule) :
    (l.only r).inspect path t tree = r.check (l.subject path t tree) := by
  rw [inspect, only, flatMap_singleton]
  rfl

/-- **Dispatch.** Rules report one behind the other, on documents of their own tier, and each of
them at places of the text in their order. -/
theorem inspect_dispatch {tree : Element} (h : Document.parse t = .ok tree) :
    l.inspect path t tree = l.rules.flatMap (fun r => (l.only r).inspect path t tree) ∧
      (∀ d ∈ l.inspect path t tree, ∃ r ∈ l.rules, d ∈ (l.only r).inspect path t tree ∧
        d.code = r.name ∧ r.tier = l.classify path ∧
        (d.severity = .error ↔ l.classify path = .strict)) ∧
      (l.classify path = .none → l.inspect path t tree = []) ∧
      ∀ r, t.Locates (((l.only r).inspect path t tree).filterMap (·.location?)) := by
  obtain ⟨es, hes, rfl⟩ := Document.parse_eq_ok_iff.1 h
  have reported : ∀ d ∈ l.inspect path t (Document.tree es), ∃ r ∈ l.rules,
      d ∈ (l.only r).inspect path t (Document.tree es) ∧ d.code = r.name ∧
      r.tier = l.classify path ∧ (d.severity = .error ↔ l.classify path = .strict) := by
    intro d hd
    obtain ⟨r, hr, hd⟩ := mem_flatMap.1 hd
    obtain ⟨tier, code, severity⟩ := Rule.of_mem_check hd
    refine ⟨r, hr, by rwa [inspect_only], code, tier.symm, ?_⟩
    rw [severity]
    exact Tier.severity_eq_error_iff _
  refine ⟨?_, reported, fun unchecked => ?_, fun r => ?_⟩
  · exact flatMap_congr fun r _ => (l.inspect_only path _ r).symm
  · refine eq_nil_iff_forall_not_mem.2 fun d hd => ?_
    obtain ⟨r, -, -, -, tier, -⟩ := reported d hd
    exact r.tier_ne_none (tier.trans unchecked)
  · rw [inspect_only]
    exact Rule.locates_check hes r

/-- A linter whose strict documents are those with the path `a.md`. -/
theorem exists_build_strict (settings : Settings)
    (tiers : settings.tiers = ⟨["a.md".toList], [], []⟩) :
    ∃ l, build settings [] = .ok l ∧ l.settings = settings ∧
      l.lexicon = Lexicon.ofVocabulary settings.vocabulary ∧
      l.classify "a.md".toList = .strict := by
  have strict : ((Classifier.build [] ⟨["a.md".toList], [], []⟩).toOption.map
      (·.classify "a.md".toList)) = some .strict := by decide +kernel
  cases built : Classifier.build [] ⟨["a.md".toList], [], []⟩ with
  | error e =>
    rw [built] at strict
    cases strict
  | ok classifier =>
    rw [built] at strict
    refine ⟨⟨settings, classifier, Lexicon.ofVocabulary settings.vocabulary, Rule.all⟩, ?_, rfl,
      rfl, Option.some.inj strict⟩
    rw [build, tiers, built]
    rfl

/-- Two paragraphs, the second one a line that is too long. -/
theorem inspect_dispatch_paragraphs :
    let settings : Settings := { Settings.standard with
      tiers := ⟨["a.md".toList], [], []⟩
      maxLineLength := 4
      vocabulary := ⟨[], [], ["use".toList], ["may".toList], [], []⟩ }
    ∃ l tree, build settings [] = .ok l ∧ Document.parse "May\n\nmay be".toList = .ok tree ∧
      (l.inspect "a.md".toList "May\n\nmay be".toList tree).map
          (fun d => (d.code, d.location?.map fun l => (l.start, l.stop))) =
        [("no-modal-verbs", some (0, 3)), ("no-modal-verbs", some (5, 11)),
         ("no-narrative", some (0, 4)), ("no-narrative", some (5, 11)),
         ("line-length", some (9, 11))] ∧
      ∀ r, Text.Locates "May\n\nmay be".toList
        (((l.only r).inspect "a.md".toList "May\n\nmay be".toList tree).filterMap
          (·.location?)) := by
  intro settings
  have parsed : Document.parse "May\n\nmay be".toList = .ok (.node .root [.node .document
      [.node .paragraph [.token .text "May".toList, .token .newline ['\n']],
       .node .blankLine [.token .newline ['\n']],
       .node .paragraph [.token .text "may be".toList]]]) := by decide +kernel
  have found : ((build settings []).toOption.map fun l =>
      (l.inspect "a.md".toList "May\n\nmay be".toList (.node .root [.node .document
        [.node .paragraph [.token .text "May".toList, .token .newline ['\n']],
         .node .blankLine [.token .newline ['\n']],
         .node .paragraph [.token .text "may be".toList]]])).map
        fun d => (d.code, d.location?.map fun l => (l.start, l.stop))) =
      some [("no-modal-verbs", some (0, 3)), ("no-modal-verbs", some (5, 11)),
        ("no-narrative", some (0, 4)), ("no-narrative", some (5, 11)),
        ("line-length", some (9, 11))] := by decide +kernel
  cases built : build settings [] with
  | error e =>
    rw [built] at found
    cases found
  | ok l =>
    rw [built] at found
    have places := (l.inspect_dispatch "a.md".toList parsed).2.2.2
    exact ⟨l, _, rfl, parsed, Option.some.inj found, places⟩

end Linter

end TierLint
