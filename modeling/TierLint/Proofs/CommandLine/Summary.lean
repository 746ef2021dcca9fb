import Mathlib.Tactic.Choose
import TierLint.CommandLine.Run
import TierLint.Proofs.CommandLine.Tally
import TierLint.Proofs.Lint.Dispatch
import TierLint.Proofs.Outcome

/-!
# What a summary counts

A summary takes up one finding after the other; each step counts one more severity, code and tier
(`Summary.Counts.addFinding`), so the summary counts the findings of all reports
(`Summary.counts_ofReports`).

Every finding of a report comes from one rule, on a document of its tier, and the tier decides how
severe it is (`Report.exists_ofPath`). So the numbers of a summary account for each other: each
finding is counted once by its severity, once by its rule and once by its tier, and no other rules
and tiers are mentioned (`Summary.accounts_ofReports`).

A summary does not depend on the order of the reports (`Summary.ofReports_perm`), and the exit
status depends on the summary alone; neither depends on the form of the report
(`World.lint_summary`).
-/

set_option autoImplicit false

namespace TierLint.CommandLine

open List

/-! ## Reports -/

/-- The findings of a report, each with the tier of the file. -/
def Report.findings (r : Report) : List (Tier × Diagnostic) :=
  match r.result with
  | .ok (tier, diagnostics) => diagnostics.map fun d => (tier, d)
  | .error _ => []

/-- The file could be read. -/
def Report.isReadable (r : Report) : Bool :=
  match r.result with
  | .ok _ => true
  | .error _ => false

/-- Each finding has the name of one of the rules and the severity of its tier, which is not
none. -/
def Report.Sound (rules : List Rule) (r : Report) : Prop :=
  ∀ tier d, (tier, d) ∈ r.findings →
    tier ≠ .none ∧ d.severity = tier.severity ∧ ∃ rule ∈ rules, d.code = rule.name

/-- There is a report on every file on which the parser returns, or that cannot be read. -/
theorem Report.exists_ofPath {files : Files} (linter : Linter) (directory : Text) {path : Text}
    (parses : ∀ t, (files path).read = .ok t → ∃ tree, Document.parse t = .ok tree) :
    ∃ r, Report.ofPath files linter directory path = .ok r ∧ r.Sound linter.rules ∧
      r.isReadable = (files path).read.isOk := by
  rw [Report.ofPath]
  cases read : (files path).read with
  | error reason =>
    refine ⟨_, rfl, ?_, rfl⟩
    intro tier d hd
    cases hd
  | ok t =>
    obtain ⟨tree, parsed⟩ := parses t read
    dsimp only
    split
    · refine ⟨_, rfl, ?_, rfl⟩
      intro tier d hd
      cases hd
    · rename_i checked
      rw [Linter.lint, parsed]
      refine ⟨_, rfl, ?_, rfl⟩
      intro tier d hd
      obtain ⟨d', hd', eq⟩ := mem_map.1 hd
      cases eq
      obtain ⟨rule, hrule, reported⟩ := mem_flatMap.1 hd'
      obtain ⟨-, code, severity⟩ := Rule.of_mem_check reported
      exact ⟨checked, severity, rule, hrule, code⟩

/-! ## Summaries -/

namespace Summary

/-- The summary counts some findings, and the files that could not be read. -/
structure Counts (s : Summary) (unreadable : Nat) (findings : List (Tier × Diagnostic)) :
    Prop where
  errors : s.errors = findings.countP fun (_, d) => d.severity = .error
  warnings : s.warnings = findings.countP fun (_, d) => d.severity = .warning
  unreadable : s.unreadable = unreadable
  byRule : s.byRule.Counts (findings.map fun (_, d) => d.code)
  byTier : s.byTier.Counts (findings.map Prod.fst)

namespace Counts

variable {s s' : Summary} {unreadable : Nat} {findings findings' : List (Tier × Diagnostic)}

theorem empty : Summary.empty.Counts 0 [] := ⟨rfl, rfl, rfl, .nil, .nil⟩

theorem addFinding (h : s.Counts unreadable findings) (tier : Tier) (d : Diagnostic) :
    (s.addFinding tier d).Counts unreadable (findings ++ [(tier, d)]) := by
  have byRule : (s.byRule.add d.code).Counts ((findings ++ [(tier, d)]).map fun (_, d) => d.code) :=
    map_append ▸ h.byRule.add d.code
  have byTier : (s.byTier.add tier).Counts ((findings ++ [(tier, d)]).map Prod.fst) :=
    map_append ▸ h.byTier.add tier
  rw [Summary.addFinding]
  split <;> rename_i severity
  · refine ⟨?_, ?_, h.unreadable, byRule, byTier⟩ <;> simp [h.errors, h.warnings, severity]
  · refine ⟨?_, ?_, h.unreadable, byRule, byTier⟩ <;> simp [h.errors, h.warnings, severity]

theorem addFindings (h : s.Counts unreadable findings) (tier : Tier) (ds : List Diagnostic) :
    (ds.foldl (Summary.addFinding tier) s).Counts unreadable
      (findings ++ ds.map fun d => (tier, d)) := by
  induction ds generalizing s findings with
  | nil => rwa [foldl_nil, map_nil, append_nil]
  | cons d ds ih =>
    rw [foldl_cons, map_cons, append_cons]
    exact ih (h.addFinding tier d)

theorem addReport (h : s.Counts unreadable findings) (r : Report) :
    (s.addReport r).Counts (unreadable + if r.isReadable then 0 else 1)
      (findings ++ r.findings) := by
  obtain ⟨path, result⟩ := r
  cases result with
  | ok result => exact h.addFindings result.1 result.2
  | error failure =>
    rw [Report.findings, append_nil]
    exact ⟨h.errors, h.warnings, congrArg (· + 1) h.unreadable, h.byRule, h.byTier⟩

theorem addReports (h : s.Counts unreadable findings) (reports : List Report) :
    (reports.foldl Summary.addReport s).Counts
      (unreadable + reports.countP fun r => !r.isReadable)
      (findings ++ reports.flatMap Report.findings) := by
  induction reports generalizing s unreadable findings with
  | nil => rwa [foldl_nil, countP_nil, flatMap_nil, append_nil]
  | cons r reports ih =>
    have files : unreadable + (reports.countP (fun r => !r.isReadable) +
          if (!r.isReadable) = true then 1 else 0) =
        unreadable + (if r.isReadable then 0 else 1) +
          reports.countP fun r => !r.isReadable := by
      cases r.isReadable <;> simp +arith
    rw [foldl_cons, countP_cons, flatMap_cons, ← append_assoc, files]
    exact ih (h.addReport r)

theorem perm (h : s.Counts unreadable findings) (p : findings.Perm findings') :
    s.Counts unreadable findings' where
  errors := h.errors.trans (p.countP_eq _)
  warnings := h.warnings.trans (p.countP_eq _)
  unreadable := h.unreadable
  byRule := h.byRule.perm (p.map _)
  byTier := h.byTier.perm (p.map _)

/-- There is one summary of some findings. -/
theorem unique (h : s.Counts unreadable findings) (h' : s'.Counts unreadable findings) :
    s = s' := by
  obtain ⟨errors, warnings, files, byRule, byTier⟩ := s
  cases h.errors.trans h'.errors.symm
  cases h.warnings.trans h'.warnings.symm
  cases h.unreadable.trans h'.unreadable.symm
  cases h.byRule.unique h'.byRule
  cases h.byTier.unique h'.byTier
  rfl

end Counts

/-- The summary counts the findings of all reports. -/
theorem counts_ofReports (reports : List Report) :
    (ofReports reports).Counts (reports.countP fun r => !r.isReadable)
      (reports.flatMap Report.findings) := by
  have run := Counts.empty.addReports reports
  rwa [Nat.zero_add, nil_append] at run

theorem ofReports_perm {reports reports' : List Report} (h : reports.Perm reports') :
    ofReports reports = ofReports reports' := by
  have counts := (counts_ofReports reports).perm (h.flatMap_right _)
  rw [h.countP_eq] at counts
  exact counts.unique (counts_ofReports reports')

/-- The numbers of a summary account for each other, and for the findings of the reports. -/
structure Accounts (s : Summary) (rules : List Rule) (reports : List Report) : Prop where
  total : s.errors + s.warnings = (reports.flatMap Report.findings).length
  byRule : (s.byRule.map Prod.snd).sum = (reports.flatMap Report.findings).length
  byTier : (s.byTier.map Prod.snd).sum = (reports.flatMap Report.findings).length
  errors : s.errors = (s.byTier.lookup .strict).getD 0
  warnings : s.warnings = (s.byTier.lookup .moderate).getD 0 + (s.byTier.lookup .light).getD 0
  rule : ∀ name n, (name, n) ∈ s.byRule → (∃ r ∈ rules, name = r.name) ∧ 0 < n ∧
    n = (reports.flatMap Report.findings).countP fun (_, d) => d.code == name
  tier : ∀ tier n, (tier, n) ∈ s.byTier → tier ≠ .none ∧ 0 < n ∧
    n = (reports.flatMap Report.findings).countP fun (tier', _) => tier' == tier
  unreadable : s.unreadable = reports.countP fun r => !r.isReadable

/-- Two kinds of severity cover all findings. -/
theorem countP_severity (findings : List (Tier × Diagnostic)) :
    findings.countP (fun x => x.2.severity = .error) +
      findings.countP (fun x => x.2.severity = .warning) = findings.length := by
  rw [length_eq_countP_add_countP fun x => x.2.severity = .error]
  congr 1
  apply countP_congr
  intro x _
  cases x.2.severity <;> simp

/-- Apart from tier none there are three tiers. -/
theorem count_tiers {tiers : List Tier} (h : ∀ tier ∈ tiers, tier ≠ .none) :
    tiers.count .strict + tiers.count .moderate + tiers.count .light = tiers.length := by
  induction tiers with
  | nil => rfl
  | cons tier tiers ih =>
    have rest := ih fun t ht => h t (mem_cons_of_mem _ ht)
    have checked := h tier mem_cons_self
    rw [count_cons, count_cons, count_cons, length_cons]
    cases tier <;> simp at checked ⊢ <;> omega

/-- In sound reports, errors are what strict documents have. -/
theorem accounts_ofReports {rules : List Rule} {reports : List Report}
    (sound : ∀ r ∈ reports, r.Sound rules) : (ofReports reports).Accounts rules reports := by
  have each : ∀ x ∈ reports.flatMap Report.findings, x.1 ≠ .none ∧
      x.2.severity = x.1.severity ∧ ∃ rule ∈ rules, x.2.code = rule.name := by
    intro x hx
    obtain ⟨r, hr, hx⟩ := mem_flatMap.1 hx
    exact sound r hr x.1 x.2 hx
  have counts := counts_ofReports reports
  -- by severity, by tier and by rule the same findings are counted
  have total := countP_severity (reports.flatMap Report.findings)
  rw [← counts.errors, ← counts.warnings] at total
  have errors : (ofReports reports).errors =
      ((reports.flatMap Report.findings).map Prod.fst).count .strict := by
    rw [counts.errors, count_eq_countP, countP_map]
    apply countP_congr
    intro x hx
    rw [decide_eq_true_iff, (each x hx).2.1, Tier.severity_eq_error_iff]
    exact beq_iff_eq.symm
  have checked : ∀ tier ∈ (reports.flatMap Report.findings).map Prod.fst, tier ≠ .none := by
    intro tier htier
    obtain ⟨x, hx, rfl⟩ := mem_map.1 htier
    exact (each x hx).1
  have tiers := count_tiers checked
  rw [length_map, ← total, ← errors] at tiers
  exact {
    total := total
    byRule := counts.byRule.sum.trans (length_map _)
    byTier := counts.byTier.sum.trans (length_map _)
    errors := errors.trans (counts.byTier.lookup .strict).symm
    warnings := by
      rw [counts.byTier.lookup, counts.byTier.lookup]
      omega
    rule := by
      intro name n hn
      obtain ⟨count, positive⟩ := counts.byRule.mem_iff.1 hn
      have met : name ∈ (reports.flatMap Report.findings).map fun x => x.2.code :=
        count_pos_iff.1 (count ▸ positive)
      obtain ⟨x, hx, rfl⟩ := mem_map.1 met
      rw [count_eq_countP, countP_map] at count
      exact ⟨(each x hx).2.2, positive, count⟩
    tier := by
      intro tier n hn
      obtain ⟨count, positive⟩ := counts.byTier.mem_iff.1 hn
      have met : tier ∈ (reports.flatMap Report.findings).map Prod.fst :=
        count_pos_iff.1 (count ▸ positive)
      obtain ⟨x, hx, rfl⟩ := mem_map.1 met
      rw [count_eq_countP, countP_map] at count
      exact ⟨(each x hx).1, positive, count⟩
    unreadable := counts.unreadable }

theorem status_eq (s : Summary) (strictWarnings : Bool) :
    s.status strictWarnings =
      if 0 < s.unreadable then 2
      else if 0 < s.errors ∨ (strictWarnings = true ∧ 0 < s.warnings) then 1
      else 0 := by
  simp only [status, Bool.or_eq_true, Bool.and_eq_true, decide_eq_true_iff]

end Summary

/-! ## Linting -/

namespace World

/-- Where the parser returns, each path has a report of its own. -/
theorem exists_report {w : World} (linter : Linter) {paths : List Text}
    (parses : ∀ p ∈ paths, ∀ t, (w.files p).read = .ok t → ∃ tree, Document.parse t = .ok tree) :
    ∃ report : Text → Report, ∀ p ∈ paths,
      Report.ofPath w.files linter w.workingDirectory p = .ok (report p) ∧
        (report p).Sound linter.rules ∧ (report p).isReadable = (w.files p).read.isOk := by
  have each : ∀ p, ∃ r, p ∈ paths →
      Report.ofPath w.files linter w.workingDirectory p = .ok r ∧ r.Sound linter.rules ∧
        r.isReadable = (w.files p).read.isOk := by
    intro p
    by_cases mem : p ∈ paths
    · obtain ⟨r, hr⟩ := Report.exists_ofPath linter w.workingDirectory (parses p mem)
      exact ⟨r, fun _ => hr⟩
    · exact ⟨⟨p, .ok (.none, [])⟩, fun mem' => absurd mem' mem⟩
  choose report of_report using each
  exact ⟨report, of_report⟩

/-- The status comes from the summary alone, and what is printed from the reports and the summary. -/
theorem exists_run_lint {w : World} {setup : Setup} {linter : Linter} {paths : List Text}
    {reports : List Report} (built : w.linter setup = .ok linter)
    (h : w.reports linter paths = .ok reports) (options : LintOptions) :
    ∃ outcome, w.run (.lint setup options paths) = .ok outcome ∧
      outcome.status = (Summary.ofReports reports).status options.strictWarnings ∧
      outcome.stdout = match options.format with
        | .human => plainReport linter.rules options.quiet reports (.ofReports reports)
        | .json => jsonReport reports (.ofReports reports) := by
  obtain ⟨strictWarnings, format, quiet⟩ := options
  rw [World.run, built]
  dsimp only
  rw [lint, h]
  cases format with
  | human => exact ⟨_, rfl, rfl, rfl⟩
  | json => exact ⟨_, rfl, rfl, rfl⟩

/-- **Summary and status.** Where the parser returns on all files, there is one report on each path,
whatever stands before and behind it, and the numbers of the summary account for each other. What is
printed and the status follow from the reports and their summary. The order of the paths does not
count for the summary, and neither the order nor the form of the report counts for the status. -/
theorem lint_summary {w : World} {setup : Setup} {linter : Linter}
    (built : w.linter setup = .ok linter) {paths : List Text}
    (parses : ∀ p ∈ paths, ∀ t, (w.files p).read = .ok t → ∃ tree, Document.parse t = .ok tree) :
    ∃ (report : Text → Report) (s : Summary),
      (∀ p ∈ paths, Report.ofPath w.files linter w.workingDirectory p = .ok (report p)) ∧
      s.Accounts linter.rules (paths.map report) ∧
      (s.unreadable = paths.countP fun p => !(w.files p).read.isOk) ∧
      ∀ paths', paths'.Perm paths → ∀ options : LintOptions,
        w.reports linter paths' = .ok (paths'.map report) ∧
        Summary.ofReports (paths'.map report) = s ∧
        ∃ outcome, w.run (.lint setup options paths') = .ok outcome ∧
          (outcome.status =
            if 0 < s.unreadable then 2
            else if 0 < s.errors ∨ (options.strictWarnings = true ∧ 0 < s.warnings) then 1
            else 0) ∧
          (outcome.stdout = match options.format with
            | .human => plainReport linter.rules options.quiet (paths'.map report) s
            | .json => jsonReport (paths'.map report) s) := by
  obtain ⟨report, of_report⟩ := exists_report linter parses
  refine ⟨report, .ofReports (paths.map report), fun p hp => (of_report p hp).1, ?_, ?_, ?_⟩
  · have sound : ∀ r ∈ paths.map report, r.Sound linter.rules := by
      intro r hr
      obtain ⟨p, hp, rfl⟩ := mem_map.1 hr
      exact (of_report p hp).2.1
    exact Summary.accounts_ofReports sound
  · rw [(Summary.counts_ofReports _).unreadable, countP_map]
    apply countP_congr
    intro p hp
    rw [Function.comp_apply, (of_report p hp).2.2]
  · intro paths' perm options
    have reports : w.reports linter paths' = .ok (paths'.map report) :=
      mapM_eq_ok_map fun p hp => (of_report p (perm.mem_iff.1 hp)).1
    have summary : Summary.ofReports (paths'.map report) = .ofReports (paths.map report) :=
      Summary.ofReports_perm (perm.map report)
    obtain ⟨outcome, run, status, stdout⟩ := exists_run_lint built reports options
    rw [summary] at status stdout
    rw [Summary.status_eq] at status
    exact ⟨reports, summary, outcome, run, status, stdout⟩

/-- A strict file with three findings, a file that is missing, and the first one again. -/
theorem lint_summary_of_missing_file :
    let w : World :=
      ⟨fun p => if p = "AGENTS.md".toList then .file (some "May".toList) else .missing,
        ⟨none, none, none⟩, "/w".toList⟩
    let paths := ["AGENTS.md".toList, "b.md".toList, "AGENTS.md".toList]
    ∃ (linter : Linter) (report : Text → Report) (s : Summary),
      w.linter ⟨none, none⟩ = .ok linter ∧
      w.reports linter paths = .ok (paths.map report) ∧ s.Accounts linter.rules (paths.map report) ∧
      s.errors = 6 ∧ s.unreadable = 1 ∧
      ∃ outcome, w.run (.lint ⟨none, none⟩ ⟨false, .json, true⟩ paths.reverse) = .ok outcome ∧
        outcome.status = 2 := by
  intro w paths
  have counted : ((w.linter ⟨none, none⟩).toOption.bind fun l =>
      (w.reports l paths).toOption.map fun rs => (Summary.ofReports rs).errors) = some 6 := by
    decide +kernel
  have parsed : (Document.parse "May".toList).isOk = true := by decide +kernel
  have parses : ∀ p ∈ paths, ∀ t, (w.files p).read = .ok t →
      ∃ tree, Document.parse t = .ok tree := by
    intro p _ t read
    apply exists_of_isOk
    change (if p = "AGENTS.md".toList then Entry.file (some "May".toList)
      else .missing).read = .ok t at read
    split at read
    · cases read
      exact parsed
    · cases read
  cases built : w.linter ⟨none, none⟩ with
  | error e =>
    rw [built] at counted
    cases counted
  | ok linter =>
    obtain ⟨report, s, -, accounts, unreadable, runs⟩ := lint_summary built parses
    have unreadable : s.unreadable = 1 := unreadable.trans (by decide)
    obtain ⟨reports, summary, -⟩ := runs paths (.refl paths) ⟨false, .json, true⟩
    obtain ⟨-, -, outcome, run, status, -⟩ := runs paths.reverse (reverse_perm paths)
      ⟨false, .json, true⟩
    rw [built] at counted
    change (w.reports linter paths).toOption.map _ = _ at counted
    rw [reports] at counted
    refine ⟨linter, report, s, rfl, reports, accounts, ?_, unreadable, outcome, run, ?_⟩
    · rw [← summary]
      exact Option.some.inj counted
    · rw [status, unreadable]
      rfl

end World

end TierLint.CommandLine
