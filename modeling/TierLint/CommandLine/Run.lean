import TierLint.CommandLine.JsonReport
import TierLint.CommandLine.PlainReport
import TierLint.CommandLine.Request
import TierLint.Syntax.Dump

/-!
# Running requests

What the program prints and with which status it ends. A request that fails as a
whole prints a message and ends with status two. Only the text of a document can
keep a request from being answered at all, where a heading marker would split a
character. Which files a request may read is known before it is answered, and no
other files count (`World.run_congr`).
-/

set_option autoImplicit false

namespace TierLint.CommandLine

/-- The status and what is printed. -/
structure Outcome where
  status : Nat
  stdout : Text
  stderr : Text

namespace Outcome

/-- The outcome of a request that only prints something. -/
def printing (t : Text) : Outcome := ⟨0, t, []⟩

/-- The outcome of a request that fails. -/
def failed (f : Failure) : Outcome := ⟨2, [], failureLine f⟩

end Outcome

/-- The files, environment and working directory that a request meets. -/
structure World where
  files : Files
  environment : Environment
  workingDirectory : Text

namespace World

/-- The linter that a setup asks for. -/
def linter (w : World) (setup : Setup) : Except Failure Linter := do
  let loaded ← Discovery.load w.files w.environment setup.config? w.workingDirectory
  let root := loaded.root setup.root? w.workingDirectory
  (Linter.build loaded.settings root).mapError .invalidPattern

/-- The reports on some files. -/
def reports (w : World) (linter : Linter) (paths : List Text) : Except ParseError (List Report) :=
  paths.mapM (Report.ofPath w.files linter w.workingDirectory)

/-- Lints files. -/
def lint (w : World) (linter : Linter) (options : LintOptions) (paths : List Text) :
    Except ParseError Outcome := do
  let reports ← w.reports linter paths
  let summary := Summary.ofReports reports
  let status := summary.status options.strictWarnings
  match options.format with
  | .human =>
    .ok ⟨status, plainReport linter.rules options.quiet reports summary,
      reports.flatMap Report.failureLines⟩
  | .json => .ok ⟨status, jsonReport reports summary, []⟩

/-- The line for the tier of a file. -/
def tierLine (w : World) (linter : Linter) (path : Text) : Text :=
  lineOf ((linter.classify (Path.join w.workingDirectory path)).name.toList ++ '\t' :: path)

/-- The line for a rule. -/
def ruleLine (r : Rule) : Text :=
  lineOf (['\t'].intercalate ([r.name, r.tier.name, r.severity.name].map String.toList))

/-- Answers a request. -/
def run (w : World) : Request → Except ParseError Outcome
  | .version => .ok (.printing "stricture 0.3.0\n".toList)
  | .lint setup options paths =>
    match w.linter setup with
    | .ok linter => w.lint linter options paths
    | .error f => .ok (.failed f)
  | .classify setup paths =>
    match w.linter setup with
    | .ok linter => .ok (.printing (paths.flatMap (w.tierLine linter)))
    | .error f => .ok (.failed f)
  | .parse path =>
    match (w.files path).read with
    | .ok t => do
      let tree ← Document.parse t
      .ok (.printing (lineOf tree.dump))
    | .error reason => .ok (.failed (.unreadable path reason))
  | .rules => .ok (.printing (Rule.all.flatMap ruleLine))

end World

/-- The files from which the settings of a setup may come. -/
def Setup.settingsFiles (setup : Setup) (env : Environment) (workingDirectory : Text) : List Text :=
  match setup.config? with
  | some path => [path]
  | none => Discovery.projectCandidates workingDirectory ++ Discovery.userCandidates env

/-- The files that a request may read. -/
def Request.filesToRead (env : Environment) (workingDirectory : Text) : Request → List Text
  | .lint setup _ paths => setup.settingsFiles env workingDirectory ++ paths
  | .classify setup _ => setup.settingsFiles env workingDirectory
  | .parse path => [path]
  | .version | .rules => []

/-- The linter depends on the files that settings may come from. -/
theorem Setup.linter_congr {files files' : Files} {env : Environment} {directory : Text}
    {setup : Setup}
    (h : ∀ p ∈ setup.settingsFiles env directory, files p = files' p) :
    (World.mk files env directory).linter setup = (World.mk files' env directory).linter setup := by
  have : Discovery.load files env setup.config? directory
      = Discovery.load files' env setup.config? directory := by
    unfold Setup.settingsFiles at h
    cases hc : setup.config? with
    | some path =>
      simp only [hc, List.mem_singleton, forall_eq] at h
      simp only [Discovery.load, Discovery.read_congr h]
    | none =>
      simp only [hc] at h
      simp only [Discovery.load, Discovery.discover_congr h]
  simp only [World.linter, this]

/-- Reports depend on the files that they are about. -/
theorem World.reports_congr {files files' : Files} {env : Environment} {directory : Text}
    (linter : Linter) {paths : List Text} (h : ∀ p ∈ paths, files p = files' p) :
    (World.mk files env directory).reports linter paths
      = (World.mk files' env directory).reports linter paths := by
  simp only [World.reports]
  induction paths with
  | nil => rfl
  | cons p paths ih =>
    have hp : Report.ofPath files linter directory p = Report.ofPath files' linter directory p := by
      simp only [Report.ofPath, h p List.mem_cons_self]
    simp only [List.mapM_cons, hp, ih fun q hq => h q (List.mem_cons_of_mem p hq)]

/-- The outcome of a request depends on the files that it may read and on no others. -/
theorem World.run_congr {files files' : Files} {env : Environment} {directory : Text}
    {request : Request}
    (h : ∀ p ∈ request.filesToRead env directory, files p = files' p) :
    (World.mk files env directory).run request = (World.mk files' env directory).run request := by
  cases request with
  | version => rfl
  | lint setup options paths =>
    simp only [Request.filesToRead, List.mem_append] at h
    simp only [World.run, Setup.linter_congr fun p hp => h p (.inl hp), World.lint,
      World.reports_congr _ fun p hp => h p (.inr hp)]
  | classify setup paths =>
    simp only [World.run, Setup.linter_congr h]
    rfl
  | parse path => simp only [World.run, h path (List.mem_singleton.2 rfl)]
  | rules => rfl

end TierLint.CommandLine
