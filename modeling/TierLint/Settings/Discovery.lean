import TierLint.Failure
import TierLint.Settings.Decode
import TierLint.Settings.Toml.Statement

/-!
# Discovery of settings files

A settings file can be named; it must then be valid. Otherwise it is looked for
in a directory and the directories above it, and then among the settings of the
user. In each of the two groups the first file there is counts, whether it is
valid or not, and a file that is not valid is skipped. Where no file is left, the
standard settings hold. Discovery looks at no other files (`discover_congr`).
-/

set_option autoImplicit false

namespace TierLint

/-- What the environment says about settings. -/
structure Environment where
  /-- The directory of the user's settings. -/
  settingsHome? : Option Text
  /-- The user's home directory. -/
  home? : Option Text
  /-- The root that documents are seen from. -/
  root? : Option Text

/-- Settings, and the file they come from. -/
structure LoadedSettings where
  settings : Settings
  path? : Option Text

namespace Discovery

/-- The names of a settings file, the preferred one first. -/
def fileNames : List Text := [".stricture.toml", "stricture.toml"].map String.toList

/-- Where settings of a project may be, seen from a directory in it. -/
def projectCandidates (start : Text) : List Text :=
  (Path.ancestors start).flatMap fun directory => fileNames.map (Path.join directory)

/-- The settings file in a directory for the settings of many programs. -/
def inHome (directory : Text) : Text :=
  Path.join (Path.join directory "stricture".toList) "config.toml".toList

/-- Where settings of the user may be. -/
def userCandidates (env : Environment) : List Text :=
  env.settingsHome?.toList.map inHome
    ++ env.home?.toList.map fun home => inHome (Path.join home ".config".toList)

/-- Reads settings. -/
def read (files : Files) (path : Text) : Except Failure Settings :=
  match (files path).read with
  | .error reason => .error (.unreadable path reason)
  | .ok t =>
    match Toml.parse? t >>= Settings.decode? true with
    | some settings => .ok settings
    | none => .error (.invalidSettings path)

/-- The settings of a file, if it has any. -/
def read? (files : Files) (path : Text) : Option LoadedSettings :=
  (read files path).toOption.map fun settings => ⟨settings, some path⟩

/-- The first file of each group of candidates. -/
def found (files : Files) (env : Environment) (start : Text) : List Text :=
  [projectCandidates start, userCandidates env].filterMap (·.find? fun path => (files path).isFile)

/-- The settings that hold in the directory `start`. -/
def discover (files : Files) (env : Environment) (start : Text) : LoadedSettings :=
  ((found files env start).findSome? (read? files)).getD ⟨Settings.standard, none⟩

/-- The settings of the named file, or those that hold in the directory `start`. -/
def load (files : Files) (env : Environment) (named? : Option Text) (start : Text) :
    Except Failure LoadedSettings :=
  match named? with
  | some path => (read files path).map fun settings => ⟨settings, some path⟩
  | none => .ok (discover files env start)

/-- Reading looks at the file itself and at nothing else. -/
theorem read_congr {files files' : Files} {path : Text} (h : files path = files' path) :
    read files path = read files' path := by
  simp only [read, h]

/-- Discovery looks at its candidates and at nothing else. -/
theorem discover_congr {files files' : Files} {env : Environment} {start : Text}
    (h : ∀ p ∈ projectCandidates start ++ userCandidates env, files p = files' p) :
    discover files env start = discover files' env start := by
  have same : ∀ paths : List Text,
      (∀ p ∈ paths, p ∈ projectCandidates start ++ userCandidates env) →
        paths.find? (fun p => (files p).isFile) = paths.find? (fun p => (files' p).isFile)
          ∧ paths.findSome? (read? files) = paths.findSome? (read? files') := by
    intro paths inside
    induction paths with
    | nil => exact ⟨rfl, rfl⟩
    | cons p paths ih =>
      have hp := h p (inside p List.mem_cons_self)
      obtain ⟨first, loaded⟩ := ih fun q hq => inside q (List.mem_cons_of_mem p hq)
      simp only [List.find?_cons, List.findSome?_cons, read?, hp, read_congr hp, first] at *
      exact ⟨trivial, by rw [loaded]⟩
  have project := same (projectCandidates start) fun p hp => List.mem_append_left _ hp
  have user := same (userCandidates env) fun p hp => List.mem_append_right _ hp
  have equal : found files env start = found files' env start := by
    simp only [found, List.filterMap_cons, List.filterMap_nil, project.1, user.1]
  have inside : ∀ p ∈ found files' env start,
      p ∈ projectCandidates start ++ userCandidates env := by
    intro p hp
    simp only [found, List.mem_filterMap, List.mem_cons, List.not_mem_nil, or_false] at hp
    obtain ⟨candidates, rfl | rfl, hp⟩ := hp
    · exact List.mem_append_left _ (List.mem_of_find?_eq_some hp)
    · exact List.mem_append_right _ (List.mem_of_find?_eq_some hp)
  rw [discover, discover, equal, (same _ inside).2]

end Discovery

/-- The root that documents are seen from: the given one, seen from the working directory; or the
root of the settings, seen from the directory of their file; or the working directory. -/
def LoadedSettings.root (s : LoadedSettings) (given? : Option Text) (workingDirectory : Text) :
    Text :=
  match given?, s.settings.root? with
  | some root, _ => Path.join workingDirectory root
  | none, some root =>
    match s.path?.bind Path.parent? with
    | some directory => Path.join (Path.join workingDirectory directory) root
    | none => Path.join workingDirectory root
  | none, none => workingDirectory

end TierLint
