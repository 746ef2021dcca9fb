import TierLint.Settings.Discovery

/-!
# Settings files that do not load

A settings file that does not load is meant to be skipped for the next candidate
(`Discovery.firstLoaded`). But of each group of candidates only the first file is tried. If it does
not load although another candidate of the group would, the group is blocked (`Discovery.Blocked`)
and gives no settings.

So what is meant holds exactly if the first group with a candidate that loads is not blocked
(`Discovery.load_eq_firstLoaded_iff`). Two files in one directory are enough for it to fail
(`Discovery.load_blocked_by_invalid_file`).
-/

set_option autoImplicit false

namespace TierLint.Discovery

variable {files : Files} {env : Environment} {start : Text} {paths : List Text}

/-! ## Candidates -/

/-- All candidates, the preferred ones first: those of the project, then those of the user. -/
def candidates (env : Environment) (start : Text) : List Text :=
  projectCandidates start ++ userCandidates env

/-- A path ends with what has been joined last. -/
theorem suffix_join (base p : Text) : p <:+ Path.join base p := by
  rw [Path.join]
  split
  · exact List.suffix_refl p
  · split
    · exact List.suffix_append base p
    · exact (List.suffix_cons '/' p).trans (List.suffix_append base _)

theorem suffix_of_mem_projectCandidates {p : Text} (h : p ∈ projectCandidates start) :
    "stricture.toml".toList <:+ p := by
  obtain ⟨directory, -, hp⟩ := List.mem_flatMap.1 h
  obtain ⟨name, hname, rfl⟩ := List.mem_map.1 hp
  have named : name = ".stricture.toml".toList ∨ name = "stricture.toml".toList := by
    simpa [fileNames] using hname
  rcases named with rfl | rfl
  · exact (List.suffix_cons '.' _).trans (suffix_join directory _)
  · exact suffix_join directory _

theorem suffix_of_mem_userCandidates {p : Text} (h : p ∈ userCandidates env) :
    "config.toml".toList <:+ p := by
  rcases List.mem_append.1 h with h | h
  · obtain ⟨directory, -, rfl⟩ := List.mem_map.1 h
    exact suffix_join _ _
  · obtain ⟨home, -, rfl⟩ := List.mem_map.1 h
    exact suffix_join _ _

/-- No path is a candidate of both groups: their names end differently. -/
theorem not_mem_userCandidates {p : Text} (h : p ∈ projectCandidates start) :
    p ∉ userCandidates env := by
  intro h'
  have both := List.suffix_of_suffix_length_le (suffix_of_mem_userCandidates h')
    (suffix_of_mem_projectCandidates h) (by decide)
  exact absurd both (by decide)

/-! ## Files that load -/

/-- The path leads to a file that can be read and holds valid settings. -/
def Loads (files : Files) (p : Text) : Prop :=
  ∃ t settings, files p = .file (some t) ∧ Toml.parse? t >>= Settings.decode? true = some settings

theorem loads_iff {p : Text} : Loads files p ↔ ∃ loaded, read? files p = some loaded := by
  constructor
  · rintro ⟨t, settings, entry, valid⟩
    refine ⟨⟨settings, some p⟩, ?_⟩
    simp only [read?, read, entry, Entry.read, valid]
    rfl
  · rintro ⟨loaded, h⟩
    obtain ⟨settings, ok, -⟩ := Option.map_eq_some_iff.1 h
    rw [read] at ok
    cases entry : files p with
    | file t? =>
      rw [entry] at ok
      cases t? with
      | none => cases ok
      | some t =>
        cases valid : Toml.parse? t >>= Settings.decode? true with
        | none =>
          simp only [Entry.read, valid] at ok
          cases ok
        | some settings => exact ⟨t, settings, entry, valid⟩
    | denied | missing | blocked | directory =>
      rw [entry] at ok
      cases ok

theorem Loads.isFile {p : Text} (h : Loads files p) : (files p).isFile = true := by
  obtain ⟨t, settings, entry, -⟩ := h
  rw [entry]
  rfl

theorem path?_of_read? {p : Text} {loaded : LoadedSettings} (h : read? files p = some loaded) :
    loaded.path? = some p := by
  obtain ⟨settings, -, rfl⟩ := Option.map_eq_some_iff.1 h
  rfl

/-- The settings of the first of some files that loads. -/
def firstOf? (files : Files) (paths : List Text) : Option LoadedSettings :=
  paths.findSome? (read? files)

/-- The settings of the first candidate that loads; the standard settings if none does. -/
def firstLoaded (files : Files) (env : Environment) (start : Text) : LoadedSettings :=
  (firstOf? files (candidates env start)).getD ⟨Settings.standard, none⟩

/-- The settings carry the path of the file that they come from. -/
theorem exists_of_firstOf? {loaded : LoadedSettings} (h : firstOf? files paths = some loaded) :
    ∃ p ∈ paths, Loads files p ∧ loaded.path? = some p := by
  obtain ⟨p, hp, loads⟩ := List.exists_of_findSome?_eq_some h
  exact ⟨p, hp, loads_iff.2 ⟨loaded, loads⟩, path?_of_read? loads⟩

theorem firstOf?_eq_none_iff : firstOf? files paths = none ↔ ∀ p ∈ paths, ¬ Loads files p := by
  rw [firstOf?, List.findSome?_eq_none_iff]
  refine forall_congr' fun p => imp_congr_right fun _ => ?_
  rw [loads_iff, ← Option.isSome_iff_exists, Option.not_isSome_iff_eq_none]

/-! ## Groups of candidates -/

/-- The settings that a group gives: those of its first file, if it loads. -/
def group? (files : Files) (paths : List Text) : Option LoadedSettings :=
  (paths.find? fun p => (files p).isFile).bind (read? files)

/-- The first file of the group does not load, although another candidate does. -/
def Blocked (files : Files) (paths : List Text) : Prop :=
  (∃ p, paths.find? (fun p => (files p).isFile) = some p ∧ ¬ Loads files p) ∧
    ∃ p ∈ paths, Loads files p

/-- Settings that a group gives are those of the first candidate that loads. -/
theorem firstOf?_of_group? {loaded : LoadedSettings} (h : group? files paths = some loaded) :
    firstOf? files paths = some loaded := by
  obtain ⟨p, first, loads⟩ := Option.bind_eq_some_iff.1 h
  obtain ⟨-, before, after, rfl, others⟩ := List.find?_eq_some_iff_append.1 first
  -- what stands in front of the first file is no file, so it does not load
  have none : ∀ q ∈ before, read? files q = none := by
    intro q hq
    rw [← Option.not_isSome_iff_eq_none, Option.isSome_iff_exists, ← loads_iff]
    intro loads
    have := others q hq
    rw [loads.isFile] at this
    cases this
  rw [firstOf?, List.findSome?_append, List.findSome?_eq_none_iff.2 none, List.findSome?_cons,
    loads]
  rfl

/-- A group gives the settings of its first candidate that loads exactly if it is not blocked. -/
theorem group?_eq_firstOf?_iff :
    group? files paths = firstOf? files paths ↔ ¬ Blocked files paths := by
  cases given : group? files paths with
  | some loaded =>
    rw [firstOf?_of_group? given]
    refine ⟨fun _ => ?_, fun _ => rfl⟩
    rintro ⟨⟨p, first, unloaded⟩, -⟩
    obtain ⟨q, first', loads⟩ := Option.bind_eq_some_iff.1 given
    obtain rfl := Option.some.inj (first.symm.trans first')
    exact unloaded (loads_iff.2 ⟨loaded, loads⟩)
  | none =>
    rw [eq_comm, firstOf?_eq_none_iff]
    constructor
    · rintro unloaded ⟨-, p, hp, loads⟩
      exact unloaded p hp loads
    · intro free p hp loads
      -- there is a first file, and it does not load
      cases first : paths.find? fun p => (files p).isFile with
      | none => exact List.find?_eq_none.1 first p hp loads.isFile
      | some q =>
        refine free ⟨⟨q, first, ?_⟩, p, hp, loads⟩
        rw [loads_iff]
        rintro ⟨loaded, h⟩
        rw [group?, first] at given
        rw [show (some q).bind (read? files) = read? files q from rfl, h] at given
        cases given

/-- Discovery takes what the first group gives that gives something. -/
theorem discover_eq (files : Files) (env : Environment) (start : Text) :
    discover files env start =
      ((group? files (projectCandidates start)).or (group? files (userCandidates env))).getD
        ⟨Settings.standard, none⟩ := by
  simp only [discover, found, group?, List.filterMap_cons, List.filterMap_nil]
  cases (projectCandidates start).find? fun p => (files p).isFile with
  | none =>
    cases (userCandidates env).find? fun p => (files p).isFile with
    | none => rfl
    | some u => simp
  | some p =>
    cases (userCandidates env).find? fun p => (files p).isFile with
    | none => simp
    | some u => cases loads : read? files p <;> simp [loads]

theorem firstLoaded_eq (files : Files) (env : Environment) (start : Text) :
    firstLoaded files env start =
      ((firstOf? files (projectCandidates start)).or (firstOf? files (userCandidates env))).getD
        ⟨Settings.standard, none⟩ := by
  rw [firstLoaded, candidates, firstOf?, List.findSome?_append]
  rfl

/-- A group that is blocked gives nothing, although a candidate of it loads. -/
theorem Blocked.group? (h : Blocked files paths) :
    group? files paths = none ∧ ∃ loaded, firstOf? files paths = some loaded := by
  obtain ⟨⟨p, first, unloaded⟩, q, hq, loads⟩ := h
  constructor
  · rw [Discovery.group?, first]
    show read? files p = none
    rwa [← Option.not_isSome_iff_eq_none, Option.isSome_iff_exists, ← loads_iff]
  · rw [← Option.isSome_iff_exists, ← Option.ne_none_iff_isSome, Ne, firstOf?_eq_none_iff]
    intro none
    exact none q hq loads

/-- **Settings files that do not load.** Without a named file there are always settings. They are
those of the first candidate that loads, or the standard ones if none does, exactly if the project's
candidates are not blocked, and those of the user are not either unless one of the project's
loads. -/
theorem load_eq_firstLoaded_iff (files : Files) (env : Environment) (start : Text) :
    (∃ loaded, load files env none start = .ok loaded) ∧
    (load files env none start = .ok (firstLoaded files env start) ↔
      ¬ Blocked files (projectCandidates start) ∧
        (Blocked files (userCandidates env) → ∃ p ∈ projectCandidates start, Loads files p)) := by
  refine ⟨⟨_, rfl⟩, ?_⟩
  show Except.ok (discover files env start) = _ ↔ _
  rw [Except.ok.injEq, discover_eq, firstLoaded_eq]
  by_cases blocked : Blocked files (projectCandidates start)
  · -- the settings found would need a path of the project
    obtain ⟨nothing, loaded, loads⟩ := blocked.group?
    obtain ⟨p, hp, -, path⟩ := exists_of_firstOf? loads
    rw [nothing, loads, Option.none_or, Option.some_or, Option.getD_some]
    refine iff_of_false ?_ fun free => free.1 blocked
    intro same
    rw [← same] at path
    cases given : group? files (userCandidates env) with
    | none =>
      rw [given] at path
      cases path
    | some other =>
      rw [given] at path
      obtain ⟨q, hq, -, path'⟩ := exists_of_firstOf? (firstOf?_of_group? given)
      obtain rfl := Option.some.inj (path.symm.trans path')
      exact not_mem_userCandidates hp hq
  · rw [group?_eq_firstOf?_iff.2 blocked, and_iff_right blocked]
    cases project : firstOf? files (projectCandidates start) with
    | some loaded =>
      obtain ⟨p, hp, loads, -⟩ := exists_of_firstOf? project
      exact iff_of_true rfl fun _ => ⟨p, hp, loads⟩
    | none =>
      have unloaded : ¬ ∃ p ∈ projectCandidates start, Loads files p := by
        rintro ⟨p, hp, loads⟩
        exact firstOf?_eq_none_iff.1 project p hp loads
      rw [Option.none_or, Option.none_or]
      constructor
      · intro same blocked
        exfalso
        obtain ⟨nothing, loaded, loads⟩ := blocked.group?
        obtain ⟨p, -, -, path⟩ := exists_of_firstOf? loads
        rw [nothing, loads, Option.getD_some] at same
        rw [← same] at path
        cases path
      · intro free
        rw [group?_eq_firstOf?_iff.2 fun blocked => unloaded (free blocked)]

/-- A file that does not load, and beside it one that does: neither counts. -/
theorem load_blocked_by_invalid_file :
    let files : Files := fun path =>
      if path = ".stricture.toml".toList then .file (some "max-line-length = \"wide\"".toList)
      else if path = "stricture.toml".toList then .file (some "max-line-length = 80".toList)
      else .missing
    (firstLoaded files ⟨none, none, none⟩ []).path? = some "stricture.toml".toList ∧
      (discover files ⟨none, none, none⟩ []).path? = none ∧
      load files ⟨none, none, none⟩ none [] ≠ .ok (firstLoaded files ⟨none, none, none⟩ []) := by
  intro files
  have meant : (firstLoaded files ⟨none, none, none⟩ []).path? = some "stricture.toml".toList := by
    decide +kernel
  have found : (discover files ⟨none, none, none⟩ []).path? = none := by decide +kernel
  refine ⟨meant, found, fun same => ?_⟩
  have same : discover files ⟨none, none, none⟩ [] = firstLoaded files ⟨none, none, none⟩ [] :=
    Except.ok.inj same
  rw [← same, found] at meant
  cases meant

end TierLint.Discovery
