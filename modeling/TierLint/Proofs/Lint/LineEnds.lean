import TierLint.Lint.Linter
import TierLint.Proofs.Document.Alike
import TierLint.Proofs.Lint.Correspondence

/-!
# Diagnostics do not depend on the form of line ends

A text without carriage returns is linted like the text with every line feed made carriage return
and line feed, and, if it does not end in a line feed, like the text with one more at its end
(`Linter.lint_lineEnds`): the same codes, severities, messages and positions in the same order.

The lines of the texts differ in their endings only, so their trees are alike. The rule on line
lengths reads the raw text and has an argument of its own (`LineLength.positions_withReturns`).
-/

set_option autoImplicit false

namespace TierLint

open Element Text

/-- The text with a carriage return in front of every line feed. -/
def Text.withReturns (t : Text) : Text :=
  t.flatMap fun c => if c = '\n' then ['\r', '\n'] else [c]

/-! ## Lines -/

namespace Line

variable {last : Bool} {ls ks : List Line}

/-- A character other than a carriage return joins lines that are in step, or is a line of its own
in front of both. -/
theorem inStep_consChar {w : Slack} {c : Char} (hc : c ≠ '\r')
    (h : InStep (Line.Alike w) last ls ks) :
    InStep (Line.Alike w) last (consChar c ls) (consChar c ks) := by
  have noCr : (c == '\r') = false := beq_eq_false_iff_ne.2 hc
  unfold consChar
  split
  · exact .cons (.refl (l := ⟨[], [], .lf⟩) List.not_mem_nil) h
  · rename_i notLf
    have notLf : '\n' ≠ c := fun lf => notLf (beq_iff_eq.2 lf.symm)
    cases h with
    | nil => exact .singleton (.refl (by simpa [body] using notLf))
    | cons first others =>
      obtain ⟨content, pending, inside, ending⟩ := first
      simp only [noCr, Bool.false_and, Bool.false_eq_true, if_false]
      refine .cons ⟨?_, pending, ?_, ending⟩ others
      · exact congrArg (c :: ·) content
      · simpa [body, notLf] using inside

/-- Carriage returns in front of line feeds change line ends only. -/
theorem inStep_withReturns {t : Text} (hcr : '\r' ∉ t) :
    InStep (Line.Alike .lineEndsOnly) false (ofText t) (ofText t.withReturns) := by
  induction t with
  | nil => exact .nil
  | cons c t ih =>
    have hc : c ≠ '\r' := fun eq => hcr (eq ▸ List.mem_cons_self)
    have rest := ih fun mem => hcr (List.mem_cons_of_mem c mem)
    rw [withReturns, List.flatMap_cons]
    split
    · rename_i lf
      subst lf
      exact .cons ⟨rfl, .inl rfl, by simp [body], .inr ⟨rfl, .inl ⟨rfl, rfl⟩⟩⟩ rest
    · exact inStep_consChar hc rest

/-- A line feed at the end of a text that ends otherwise ends its last line. -/
theorem inStep_append_lf {t : Text} (hcr : '\r' ∉ t) (ne : t ≠ []) (hlf : t.getLast? ≠ some '\n') :
    InStep (Line.Alike .lineEndsOnly) true (ofText t) (ofText (t ++ ['\n'])) := by
  induction t with
  | nil => exact absurd rfl ne
  | cons c t ih =>
    have hc : c ≠ '\r' := fun eq => hcr (eq ▸ List.mem_cons_self)
    have ht : '\r' ∉ t := fun mem => hcr (List.mem_cons_of_mem c mem)
    cases t with
    | nil =>
      have notLf : c ≠ '\n' := by simpa using hlf
      have one : ofText [c] = [⟨[], [c], .none⟩] := by simp [ofText, consChar, notLf]
      have two : ofText [c, '\n'] = [⟨[], [c], .lf⟩] := by simp [ofText, consChar, notLf, hc]
      rw [List.singleton_append, one, two]
      exact .singleton ⟨rfl, .inl rfl, by simpa [body] using notLf.symm,
        .inr ⟨rfl, .inr ⟨rfl, rfl, rfl⟩⟩⟩
    | cons d t => exact inStep_consChar hc (ih ht (by simp) (by simpa using hlf))

end Line

/-! ## Line lengths -/

namespace LineLength

/-- A raw line of a text, and the line of the text with carriage returns. -/
def Returned (p q : Text) : Prop := '\r' ∉ p ∧ (q = p ∨ q = p ++ ['\r'])

theorem withoutReturn_eq {p q : Text} (h : Returned p q) : withoutReturn p = withoutReturn q := by
  obtain ⟨hcr, rfl | rfl⟩ := h
  · rfl
  · have other : withoutReturn p = p := by
      rw [withoutReturn, if_neg]
      intro ends
      obtain ⟨c, last, cr⟩ := (Option.any_eq_true _ _).1 ends
      exact hcr (beq_iff_eq.1 cr ▸ List.mem_of_getLast? last)
    rw [other, withoutReturn, if_pos (by simp [endsBy]), List.dropLast_concat]

theorem splitOn_cons (c : Char) (t : Text) :
    splitOn '\n' (c :: t) =
      if c == '\n' then [] :: splitOn '\n' t
      else (c :: (splitOn '\n' t).headD []) :: (splitOn '\n' t).tail := rfl

theorem splitOn_withReturns {t : Text} (hcr : '\r' ∉ t) :
    List.Forall₂ Returned (splitOn '\n' t) (splitOn '\n' t.withReturns) := by
  induction t with
  | nil => exact .cons ⟨by simp, .inl rfl⟩ .nil
  | cons c t ih =>
    have hc : '\r' ≠ c := fun eq => hcr (eq ▸ List.mem_cons_self)
    have rest := ih fun mem => hcr (List.mem_cons_of_mem c mem)
    rw [withReturns, List.flatMap_cons, ← withReturns]
    by_cases lf : c = '\n'
    · subst lf
      exact .cons ⟨by simp, .inr rfl⟩ rest
    · rw [if_neg lf, List.singleton_append, splitOn_cons, splitOn_cons,
        if_neg (by simpa using lf), if_neg (by simpa using lf)]
      generalize splitOn '\n' t = pieces at rest ⊢
      generalize splitOn '\n' (withReturns t) = pieces' at rest ⊢
      cases rest with
      | nil => exact .cons ⟨by simpa using hc, .inl rfl⟩ .nil
      | @cons p q _ _ first rest =>
        refine .cons ⟨by simpa [hc] using first.1, ?_⟩ rest
        exact first.2.imp (congrArg (c :: ·)) (congrArg (c :: ·))

/-- What a raw line is without its carriage return decides where it is too long. -/
theorem positions_overlong {ps qs : List Text}
    (h : List.Forall₂ (fun p q => withoutReturn p = withoutReturn q) ps qs)
    (limit number start start' : Nat) (inFence : Bool) :
    (overlong limit number start inFence ps).map (·.position) =
      (overlong limit number start' inFence qs).map (·.position) := by
  induction h generalizing number start start' inFence with
  | nil => rfl
  | @cons p q ps qs first _ ih =>
    rw [overlong, overlong, first]
    split
    · exact ih ..
    · rw [List.map_append, List.map_append, ih _ _ (start' + byteLength q + 1)]
      congr 1
      split
      · rfl
      · cases overflow? limit (withoutReturn q) <;> rfl

theorem positions_withReturns {t : Text} (hcr : '\r' ∉ t) (limit : Nat) :
    (locations limit t.withReturns).map (·.position) = (locations limit t).map (·.position) :=
  (positions_overlong ((splitOn_withReturns hcr).imp fun _ _ => withoutReturn_eq) ..).symm

/-- A line feed at the end of the text adds an empty line, which is not too long. -/
theorem overlong_append_nil (limit number start : Nat) (inFence : Bool) (ps : List Text) :
    overlong limit number start inFence (ps ++ [[]]) = overlong limit number start inFence ps := by
  induction ps generalizing number start inFence with
  | nil =>
    have fits : overflow? limit [] = none := by simp [overflow?]
    simp [overlong, withoutReturn, endsBy, isFence, trim, trimStart, trimEnd, dropEndWhile, fits]
  | cons p ps ih =>
    rw [List.cons_append, overlong, overlong]
    split
    · exact ih ..
    · rw [ih]

theorem splitOn_append_lf (t : Text) : splitOn '\n' (t ++ ['\n']) = splitOn '\n' t ++ [[]] := by
  induction t with
  | nil => rfl
  | cons c t ih =>
    rw [List.cons_append, splitOn_cons, splitOn_cons, ih]
    split
    · rfl
    · cases pieces : splitOn '\n' t with
      | nil => exact absurd (splitOn_eq '\n' t ▸ pieces) (List.splitOn_ne_nil '\n' t)
      | cons => rfl

theorem locations_append_lf (limit : Nat) (t : Text) :
    locations limit (t ++ ['\n']) = locations limit t := by
  rw [locations, locations, splitOn_append_lf, overlong_append_nil]

end LineLength

/-! ## Diagnostics -/

/-- What is shown of a diagnostic: its rule, severity and message, and its line and column. -/
def Diagnostic.view (d : Diagnostic) : String × Severity × Text × Option Position :=
  (d.code, d.severity, d.message, d.location?.map (·.position))

theorem Diagnostic.Like.view_eq {d e : Diagnostic} (h : Diagnostic.Like Eq d e) :
    d.view = e.view := by
  have position : d.location?.map (·.position) = e.location?.map (·.position) :=
    h.map_location_eq fun _ _ same => same
  rw [view, view, h.code, h.severity, h.message, position]

/-- Both texts have the same position behind them. -/
def SamePosition (b b' : Text) : Prop := Position.start.past b = Position.start.past b'

theorem tracks_samePosition : Tracks .lineEndsOnly SamePosition where
  same t h := by rw [SamePosition, Position.past_append, Position.past_append, h]
  filler free := by cases free
  filler' free := by cases free
  lineEnd _ _ _ h := by
    rw [SamePosition, Position.past_append, Position.past_append, h, Position.past_lf,
      Position.past_crlf]

namespace Subject.Corresponds

variable {s s' : Subject}

/-- The rule on line lengths looks at the raw text only. -/
theorem view_lineLength (settings : s.settings = s'.settings) (tier : s.tier = s'.tier)
    (h : (LineLength.locations s.settings.maxLineLength s.text).map (·.position) =
      (LineLength.locations s.settings.maxLineLength s'.text).map (·.position)) :
    (Rule.lineLength.check s).map (·.view) = (Rule.lineLength.check s').map (·.view) := by
  have shown : ∀ (ls : List Location) (message : Text),
      ((ls.map fun l => Finding.mk (some l) message).map Rule.lineLength.report).map (·.view) =
        (ls.map (·.position)).map fun p =>
          (Rule.lineLength.name, Rule.lineLength.severity, message, some p) := by
    intro ls message
    simp [Rule.report, Diagnostic.view, Function.comp_def]
  rw [Rule.check, Rule.check, ← tier]
  split
  · rw [Rule.findings, Rule.findings, Rule.lineLengthFindings, Rule.lineLengthFindings, ← settings]
    rw [shown, shown, h]
  · rfl

/-- Rules show the same for two subjects that correspond at the same positions. -/
theorem view_check {w : Slack} (h : Corresponds w Eq s s')
    (lengths : (LineLength.locations s.settings.maxLineLength s.text).map (·.position) =
      (LineLength.locations s.settings.maxLineLength s'.text).map (·.position)) (r : Rule) :
    (r.check s).map (·.view) = (r.check s').map (·.view) := by
  by_cases hr : r = .lineLength
  · subst hr
    exact view_lineLength h.settings h.tier lengths
  · exact map_eq_of_forall₂ (fun _ _ like => like.view_eq) (h.check hr)

end Subject.Corresponds

namespace Linter

variable {l : Linter} {es fs : List Element} {t t' : Text}

/-- Documents that are alike up to line ends correspond at the same positions. -/
theorem corresponds_of_alike (words : l.settings.vocabulary.Unbroken) (lexicon : l.lexicon.Unbroken)
    {last : Bool} (alike : Alike .lineEndsOnly last es fs) (ht : textOf es = t)
    (ht' : textOf fs = t') (path : Text) :
    Subject.Corresponds .lineEndsOnly Eq (l.subject path t (Document.tree es))
      (l.subject path t' (Document.tree fs)) where
  settings := rfl
  lexicon := rfl
  tier := rfl
  words _ := ⟨words, lexicon⟩
  nodes {k} hk := by
    have hr : Kind.root ≠ k := Kind.ne_of_isSought hk rfl
    have hd : Kind.document ≠ k := Kind.ne_of_isSought hk rfl
    rw [subject, subject, Document.nodesOf_tree hr hd, Document.nodesOf_tree hr hd]
    exact Subject.nodesBehind_like tracks_samePosition alike rfl (ht ▸ List.prefix_refl _)
      (ht' ▸ List.prefix_refl _) (fun _ _ same => same) k _ _
  runs := by
    rw [Subject.proseRuns, Subject.proseRuns, subject, subject, Document.textRuns_tree,
      Document.textRuns_tree]
    exact Subject.proseRunsFromAll_like tracks_samePosition alike rfl (ht ▸ List.prefix_refl _)
      (ht' ▸ List.prefix_refl _) (fun _ _ same => same) rfl

/-- A linter shows the same for subjects that correspond at the same positions. -/
theorem view_inspect {w : Slack} {path : Text} {tree tree' : Element}
    (h : Subject.Corresponds w Eq (l.subject path t tree) (l.subject path t' tree'))
    (lengths : ∀ limit, (LineLength.locations limit t).map (·.position) =
      (LineLength.locations limit t').map (·.position)) :
    (l.inspect path t tree).map (·.view) = (l.inspect path t' tree').map (·.view) := by
  rw [inspect, inspect, List.map_flatMap, List.map_flatMap]
  exact List.flatMap_congr fun r _ => h.view_check (lengths _) r

theorem exists_view_eq (words : l.settings.vocabulary.Unbroken) (lexicon : l.lexicon.Unbroken)
    {last : Bool} (lines : InStep (Line.Alike .lineEndsOnly) last (Line.ofText t) (Line.ofText t'))
    (lengths : ∀ limit, (LineLength.locations limit t).map (·.position) =
      (LineLength.locations limit t').map (·.position))
    {path : Text} {ds : List Diagnostic} (h : l.lint path t = .ok ds) :
    ∃ ds', l.lint path t' = .ok ds' ∧ ds'.map (·.view) = ds.map (·.view) := by
  obtain ⟨tree, htree, rfl⟩ := exists_of_map_eq_ok h
  obtain ⟨es, hes, rfl⟩ := Document.parse_eq_ok_iff.1 htree
  obtain ⟨fs, hfs, alike⟩ := Document.elements_alike hes lines
  refine ⟨l.inspect path t' (Document.tree fs), ?_, ?_⟩
  · rw [lint, Document.parse_eq_ok_iff.2 ⟨fs, hfs, rfl⟩]
    rfl
  · exact (view_inspect (corresponds_of_alike words lexicon alike (Document.textOf_of_elements hes)
      (Document.textOf_of_elements hfs) path) lengths).symm

/-- The empty document has no lines to end; with a line feed it is one blank line. -/
theorem exists_view_eq_blank (words : l.settings.vocabulary.Unbroken) (lexicon : l.lexicon.Unbroken)
    {path : Text} {ds : List Diagnostic} (h : l.lint path [] = .ok ds) :
    ∃ ds', l.lint path ['\n'] = .ok ds' ∧ ds'.map (·.view) = ds.map (·.view) := by
  let blankDocument : Element := .node .root [.node .document
    [.node .blankLine [.token .newline ['\n']]]]
  have empty : Document.parse [] = .ok (.node .root [.node .document []]) := by decide +kernel
  have blank : Document.parse ['\n'] = .ok blankDocument := by decide +kernel
  rw [lint, empty] at h
  cases h
  have corresponds : Subject.Corresponds .lineEndsOnly Eq
      (l.subject path [] (.node .root [.node .document []]))
      (l.subject path ['\n'] blankDocument) := by
    refine ⟨rfl, rfl, rfl, fun _ => ⟨words, lexicon⟩, fun {k} hk => ?_, .nil⟩
    cases k <;> first | exact .nil | cases hk
  refine ⟨l.inspect path ['\n'] blankDocument, ?_, (view_inspect corresponds fun limit => ?_).symm⟩
  · rw [lint, blank]
    rfl
  · exact congrArg _ (LineLength.locations_append_lf limit []).symm

/-- **Line ends.** A text without carriage returns is linted like the same text with carriage
return and line feed at the end of each line, and like the text with a line feed at its end if it
has none: with the same rules, severities, messages, lines and columns. -/
theorem lint_lineEnds {settings : Settings} {root : Text} {l : Linter}
    (built : build settings root = .ok l) (words : settings.vocabulary.Unbroken) {t : Text}
    (hcr : '\r' ∉ t) {path : Text} {ds : List Diagnostic} (h : l.lint path t = .ok ds) :
    (∃ ds', l.lint path t.withReturns = .ok ds' ∧ ds'.map (·.view) = ds.map (·.view)) ∧
      (t.getLast? ≠ some '\n' →
        ∃ ds', l.lint path (t ++ ['\n']) = .ok ds' ∧ ds'.map (·.view) = ds.map (·.view)) := by
  obtain ⟨classifier, -, eq⟩ := exists_of_bind_eq_ok built
  cases eq
  refine ⟨?_, fun hlf => ?_⟩
  · exact exists_view_eq words words.lexicon (Line.inStep_withReturns hcr)
      (fun limit => (LineLength.positions_withReturns hcr limit).symm) h
  · by_cases ne : t = []
    · subst ne
      exact exists_view_eq_blank words words.lexicon h
    · exact exists_view_eq words words.lexicon (Line.inStep_append_lf hcr ne hlf)
        (fun limit => by rw [LineLength.locations_append_lf]) h

/-- A paragraph of two lines, the first of them too long. -/
theorem lint_lineEnds_modal :
    let settings : Settings := { Settings.standard with
      tiers := ⟨["a.md".toList], [], []⟩
      maxLineLength := 4
      vocabulary := ⟨["scope".toList], [], ["use".toList], ["may".toList], [], []⟩ }
    ∃ l ds, build settings [] = .ok l ∧ l.lint "a.md".toList "Use x\nmay".toList = .ok ds ∧
      ds.map (·.code) = ["heading-order", "no-modal-verbs", "no-narrative", "line-length"] ∧
      (∃ ds', l.lint "a.md".toList "Use x\r\nmay".toList = .ok ds' ∧
        ds'.map (·.view) = ds.map (·.view)) ∧
      (∃ ds', l.lint "a.md".toList "Use x\nmay\n".toList = .ok ds' ∧
        ds'.map (·.view) = ds.map (·.view)) := by
  intro settings
  have codes : ((build settings []).toOption.bind fun l =>
      (l.lint "a.md".toList "Use x\nmay".toList).toOption.map (·.map (·.code))) =
        some ["heading-order", "no-modal-verbs", "no-narrative", "line-length"] := by decide +kernel
  cases built : build settings [] with
  | error e =>
    rw [built] at codes
    cases codes
  | ok l =>
    rw [built] at codes
    replace codes : (l.lint "a.md".toList "Use x\nmay".toList).toOption.map (·.map (·.code)) =
      some ["heading-order", "no-modal-verbs", "no-narrative", "line-length"] := codes
    cases linted : l.lint "a.md".toList "Use x\nmay".toList with
    | error e =>
      rw [linted] at codes
      cases codes
    | ok ds =>
      rw [linted] at codes
      have words : settings.vocabulary.Unbroken := by constructor <;> decide
      have both := lint_lineEnds built words (by decide) linted
      exact ⟨l, ds, rfl, linted, Option.some.inj codes, both.1, both.2 (by decide)⟩

end Linter

end TierLint
