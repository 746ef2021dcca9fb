import TierLint.Proofs.Document.RunProse
import TierLint.Proofs.Lexicon.Occurrences

/-!
# Modal verbs in directives

Two rules look for modal verbs: one in the text runs of a document, the other in the prose of its
paragraphs. A run is a part of the prose of its paragraph, but it ends where a node begins and the
prose goes on, and a run has a line feed where the prose may have a carriage return and a line feed.
So a word that stands at the edge of a run may be a part of a longer word in the paragraph, and a
word over two lines may be spelled in another way there; neither is a reason to report the paragraph
(`Rule.exists_modalVerb_in_directive`). A word that keeps its boundaries and is spelled as a modal
verb in the prose, too, is found in both (`Rule.check_noModalVerbs`).
-/

set_option autoImplicit false

namespace TierLint

open Element List

namespace WordList

theorem ne_nil_of_occurs {words : List Text} {t : Text} (h : occurs words t = true) : t ≠ [] := by
  rintro rfl
  obtain ⟨front, m, back, cut, stands⟩ := occurs_iff.1 h
  rw [eq_comm, append_assoc, append_eq_nil_iff] at cut
  obtain ⟨rfl, cut⟩ := cut
  have boundary := stands.before
  rw [cut] at boundary
  cases boundary

end WordList

namespace Rule

variable {s : Subject}

/-- The reports on modal verbs. -/
theorem check_noModalVerbs_eq (strict : s.tier = .strict) :
    Rule.noModalVerbs.check s =
      (s.tree.textRuns.filter fun r => !r.inCode && s.lexicon.hasModal r.text).map fun r =>
        ⟨"no-modal-verbs", .error, some (Location.ofRange s.text r.start r.stop),
          "Modal verbs (may/might/could) are prohibited in body content".toList⟩ := by
  rw [check_eq strict, findings, runFindings, Subject.proseRuns, filter_filter, map_map]
  simp only [Bool.and_comm]
  rfl

/-- A paragraph that holds a modal verb is reported as no directive. -/
theorem exists_mem_check_noNarrative (strict : s.tier = .strict) {v : Visit}
    (hv : v ∈ s.tree.nodesOf .paragraph) (modal : s.lexicon.hasModal v.element.prose = true) :
    ∃ d ∈ Rule.noNarrative.check s,
      d.location? = some (Location.ofRange s.text v.start v.stop) := by
  have found : s.lexicon.hasModal (Text.trim v.element.prose) = true := WordList.occurs_trim modal
  have filled : (Text.trim v.element.prose).isEmpty = false :=
    isEmpty_eq_false_iff.2 (WordList.ne_nil_of_occurs found)
  rw [check_eq strict, findings, paragraphFindings, map_map, Subject.paragraphs]
  refine ⟨_, mem_map_of_mem (a := (v, Text.trim v.element.prose))
    (mem_filter.2 ⟨mem_filter.2 ⟨?_, ?_⟩, ?_⟩), rfl⟩
  · exact mem_map_of_mem hv
  · rw [filled, Bool.not_false]
  · simp [isDirective, found]

/-- Paragraphs that are directives are not reported. -/
theorem check_noNarrative_eq_nil
    (directive : ∀ v ∈ s.tree.nodesOf .paragraph,
      isDirective s.lexicon (Text.trim v.element.prose) = true) :
    Rule.noNarrative.check s = [] := by
  have none : Rule.noNarrative.findings s = [] := by
    rw [findings, paragraphFindings, map_eq_nil_iff, filter_eq_nil_iff, Subject.paragraphs]
    rintro x hx
    obtain ⟨v, hv, rfl⟩ := mem_map.1 (mem_of_mem_filter hx)
    simp [directive v hv]
  rw [check, none]
  split <;> rfl

/-- **Modal verbs in paragraphs.** Each report of a modal verb is about a text run that holds one.
If the run lies inside a paragraph, and one of the words in it is a whole word between the prose of
the paragraph in front of the run and behind it, the paragraph is reported as no directive. If that
word has a line feed in it, it must be a modal verb with the line ends that the prose of the
paragraph has at its place, too; how the lines around the word end does not matter. -/
theorem check_noModalVerbs (s : Subject) (strict : s.tier = .strict)
    (parsed : Document.parse s.text = .ok s.tree) :
    let runs := s.tree.textRuns.filter fun r => !r.inCode && s.lexicon.hasModal r.text
    let verbs := s.lexicon.modalVerbs
    Rule.noModalVerbs.check s =
        (runs.map fun r =>
          ⟨"no-modal-verbs", .error, some (Location.ofRange s.text r.start r.stop),
            "Modal verbs (may/might/could) are prohibited in body content".toList⟩) ∧
      ∀ r ∈ runs, ∀ v ∈ s.tree.nodesOf .paragraph, v.start ≤ r.start → r.stop ≤ v.stop →
        (∃ a m b, r.text = a ++ m ++ b ∧
          WordList.Stands verbs (s.tree.proseBetween v.start r.start ++ a) m
            (b ++ s.tree.proseBetween r.stop v.stop) ∧
          ('\n' ∈ m → ∀ m', SpelledAs a m b (s.tree.proseBetween r.start r.stop) m' →
            WordList.Lists verbs m')) →
        ∃ d ∈ Rule.noNarrative.check s,
          d.location? = some (Location.ofRange s.text v.start v.stop) := by
  intro runs verbs
  refine ⟨check_noModalVerbs_eq strict, ?_⟩
  rintro r hr v hv begins ends ⟨a, m, b, text, stands, spelled⟩
  obtain ⟨prose, same⟩ := Document.prose_of_run parsed (mem_of_mem_filter hr) hv begins ends
  refine exists_mem_check_noNarrative strict hv ?_
  rw [prose]
  rw [text] at same
  exact stands.rebroken same spelled

/-- A quoted paragraph with a modal verb over two lines, in a run between code and emphasis. Other
lines of the paragraph end with a carriage return. -/
theorem check_noModalVerbs_between_nodes :
    let t := "> Use `it`,\r\n> might\n> skip*!* it.\r\n".toList
    let settings : Settings := { Settings.standard with
      tiers := ⟨["a.md".toList], [], []⟩
      vocabulary := { Vocabulary.standard with modalVerbs := ["might\nskip".toList] } }
    ∃ l tree d, Linter.build settings [] = .ok l ∧ Document.parse t = .ok tree ∧
      l.classify "a.md".toList = .strict ∧
      d ∈ Rule.noNarrative.check (l.subject "a.md".toList t tree) ∧
      d.location? = some ⟨⟨1, 1⟩, 0, 36⟩ := by
  intro t settings
  obtain ⟨l, built, -, lexicon, strict⟩ := Linter.exists_build_strict settings rfl
  -- what is computed of the document: the run between the two nodes, and the prose around it
  have facts : (Document.parse t).toOption.any (fun tree =>
      ∃ r ∈ tree.textRuns.filter fun r =>
          !r.inCode && (Lexicon.ofVocabulary settings.vocabulary).hasModal r.text,
        ∃ v ∈ tree.nodesOf .paragraph,
          (v.start = 0 ∧ v.stop = 36) ∧ (r.start = 10 ∧ r.stop = 27) ∧
            r.text = ",\nmight\nskip".toList ∧
            tree.proseBetween 0 10 = "Use it".toList ∧
            tree.proseBetween 10 27 = ",\r\nmight\nskip".toList ∧
            tree.proseBetween 27 36 = "! it.\r\n".toList) = true := by decide +kernel
  obtain ⟨tree, found, holds⟩ := (Option.any_eq_true _ _).1 facts
  obtain ⟨r, hr, v, hv, ⟨start, stop⟩, ⟨begin_, end_⟩, text, front, inside, back⟩ :=
    of_decide_eq_true holds
  rw [← lexicon] at hr
  have verb : WordList.Lists l.lexicon.modalVerbs "might\nskip".toList := by
    rw [lexicon]
    exact ⟨_, mem_singleton.2 rfl, forall₂_same.2 fun c _ => beq_self_eq_true _⟩
  have stands : WordList.Stands l.lexicon.modalVerbs ("Use it".toList ++ ",\n".toList)
      "might\nskip".toList ([] ++ "! it.\r\n".toList) := ⟨verb, by decide, by decide⟩
  -- in front of the verb the prose is spelled in another way, at its place it is not
  have spelled : SpelledAs ",\n".toList "might\nskip".toList [] ",\r\nmight\nskip".toList
      "might\nskip".toList :=
    ⟨⟨",\r\n".toList, [], rfl, .char ',' (.crlf rfl .nil), .nil⟩, .refl _⟩
  rw [← front, ← back, ← start, ← stop, ← begin_, ← end_] at stands
  rw [← inside, ← begin_, ← end_] at spelled
  obtain ⟨d, reported, location⟩ := (check_noModalVerbs (l.subject "a.md".toList t tree) strict
    (eq_ok_of_toOption found)).2 r hr v hv (by omega) (by omega)
    ⟨_, _, _, text, stands, fun _ m' other => spelled.unique other ▸ verb⟩
  rw [start, stop] at location
  exact ⟨l, tree, d, built, eq_ok_of_toOption found, strict, reported, location⟩

/-- Two directives with a modal verb in a run: it goes on as a longer word behind the edge of the
run, or spans a line that ends with a carriage return. -/
theorem exists_modalVerb_in_directive :
    let settings : Settings := { Settings.standard with
      tiers := ⟨["a.md".toList], [], []⟩
      vocabulary := { Vocabulary.standard with
        modalVerbs := ["may".toList, "might\nskip".toList] } }
    ∃ l, Linter.build settings [] = .ok l ∧ l.classify "a.md".toList = .strict ∧
      ∀ t ∈ ["Use may*flower* now.\n".toList, "Use it, might\r\nskip it.\r\n".toList],
        ∃ tree r v, Document.parse t = .ok tree ∧
          (∃ d ∈ Rule.noModalVerbs.check (l.subject "a.md".toList t tree),
            d.location? = some (Location.ofRange t r.start r.stop)) ∧
          r ∈ tree.textRuns ∧ v ∈ tree.nodesOf .paragraph ∧
          v.start ≤ r.start ∧ r.stop ≤ v.stop ∧
          Rule.noNarrative.check (l.subject "a.md".toList t tree) = [] := by
  intro settings
  obtain ⟨l, built, -, lexicon, strict⟩ := Linter.exists_build_strict settings rfl
  -- the runs hold a verb, and still every paragraph is a directive
  have directives : ∀ t ∈ ["Use may*flower* now.\n".toList, "Use it, might\r\nskip it.\r\n".toList],
      (Document.parse t).toOption.any (fun tree =>
        (∃ r ∈ tree.textRuns.filter fun r =>
            !r.inCode && (Lexicon.ofVocabulary settings.vocabulary).hasModal r.text,
          ∃ v ∈ tree.nodesOf .paragraph, v.start ≤ r.start ∧ r.stop ≤ v.stop) ∧
        ∀ v ∈ tree.nodesOf .paragraph, isDirective (Lexicon.ofVocabulary settings.vocabulary)
          (Text.trim v.element.prose) = true) = true := by decide +kernel
  refine ⟨l, built, strict, fun t ht => ?_⟩
  obtain ⟨tree, found, holds⟩ := (Option.any_eq_true _ _).1 (directives t ht)
  obtain ⟨⟨r, hr, v, hv, begins, ends⟩, directive⟩ := of_decide_eq_true holds
  rw [← lexicon] at hr directive
  refine ⟨tree, r, v, eq_ok_of_toOption found, ?_, mem_of_mem_filter hr, hv, begins, ends,
    check_noNarrative_eq_nil directive⟩
  rw [check_noModalVerbs_eq (s := l.subject "a.md".toList t tree) strict]
  exact ⟨_, mem_map_of_mem hr, rfl⟩

end Rule

end TierLint
