import TierLint.Path
import TierLint.Proofs.Text.Cut

/-!
# What paths mean

A path means its steps, taken one after the other (`follow`). The result has no step left to take
away: only names, behind `..` steps that lead out of a relative path (`Reduced`). So the text of a
meaning has this meaning again (`ofText_toText`), and normal forms are normal
(`normalized_normalized`).

A classifier asks for the names of a path below a root: the names of a relative path that does not
leave the place it is seen from (`below?_of_relative`), and those of an absolute path behind the
names of the root (`below?_of_absolute`).
-/

set_option autoImplicit false

namespace TierLint

/-- A name of a file or directory. -/
structure Ordinary (s : Text) : Prop where
  ne_nil : s ≠ []
  ne_dot : s ≠ ['.']
  ne_up : s ≠ ['.', '.']
  slash : '/' ∉ s

namespace LexicalPath

/-! ## Single steps -/

@[simp] theorem step_nil (p : LexicalPath) : p.step [] = p := rfl

@[simp] theorem step_dot (p : LexicalPath) : p.step ['.'] = p := rfl

/-- A name is put behind the names. -/
theorem step_ordinary (p : LexicalPath) {s : Text} (h : Ordinary s) :
    p.step s = { p with names := p.names ++ [s] } := by
  have notIdle : (s.isEmpty || s == ['.']) = false := by
    simp [h.ne_nil, h.ne_dot]
  have notUp : (s == ['.', '.']) = false := by
    simp [h.ne_up]
  rw [step, notIdle, notUp]
  rfl

/-- Going up takes the last name away. -/
theorem step_up (p : LexicalPath) (h : p.names ≠ []) :
    p.step ['.', '.'] = { p with names := p.names.dropLast } := by
  rw [step]
  simp [h]

/-- Going up from a relative path without names leads out of it. -/
theorem step_up_relative (ups : Nat) :
    step ⟨false, ups, []⟩ ['.', '.'] = ⟨false, ups + 1, []⟩ := rfl

/-- The root has nothing above it. -/
theorem step_up_root (ups : Nat) : step ⟨true, ups, []⟩ ['.', '.'] = ⟨true, ups, []⟩ := rfl

/-- A step is nothing, goes up or is a name. -/
theorem step_cases {s : Text} (h : '/' ∉ s) :
    (∀ p : LexicalPath, p.step s = p) ∨ s = ['.', '.'] ∨ Ordinary s := by
  by_cases empty : s = []
  · left
    rw [empty]
    exact step_nil
  by_cases dot : s = ['.']
  · left
    rw [dot]
    exact step_dot
  by_cases up : s = ['.', '.']
  · exact .inr (.inl up)
  · exact .inr (.inr ⟨empty, dot, up, h⟩)

/-! ## Steps one after the other -/

/-- Takes some steps. -/
def follow (p : LexicalPath) (steps : List Text) : LexicalPath := steps.foldl step p

@[simp] theorem follow_nil (p : LexicalPath) : p.follow [] = p := rfl

@[simp] theorem follow_cons (p : LexicalPath) (s : Text) (ss : List Text) :
    p.follow (s :: ss) = (p.step s).follow ss := rfl

@[simp] theorem follow_append (p : LexicalPath) (ss ts : List Text) :
    p.follow (ss ++ ts) = (p.follow ss).follow ts := List.foldl_append

theorem ofText_eq_follow (t : Text) :
    ofText t = follow ⟨Path.isAbsolute t, 0, []⟩ (Text.splitOn '/' t) := rfl

/-- Names are put behind the names. -/
theorem follow_names (p : LexicalPath) {names : List Text} (h : ∀ n ∈ names, Ordinary n) :
    p.follow names = { p with names := p.names ++ names } := by
  induction names generalizing p with
  | nil => simp
  | cons n names ih =>
    obtain ⟨hn, others⟩ := List.forall_mem_cons.1 h
    rw [follow_cons, step_ordinary p hn, ih _ others]
    simp

theorem absolute_step (p : LexicalPath) (s : Text) : (p.step s).absolute = p.absolute := by
  rw [step]
  split
  · rfl
  · split
    · split
      · rfl
      · split <;> rfl
    · rfl

@[simp] theorem absolute_follow (p : LexicalPath) (ss : List Text) :
    (p.follow ss).absolute = p.absolute := by
  induction ss generalizing p with
  | nil => rfl
  | cons s ss ih => rw [follow_cons, ih, absolute_step]

@[simp] theorem absolute_ofText (t : Text) : (ofText t).absolute = Path.isAbsolute t := by
  rw [ofText_eq_follow, absolute_follow]

/-- A path never gets back what it has left. -/
theorem ups_le_step (p : LexicalPath) (s : Text) : p.ups ≤ (p.step s).ups := by
  rw [step]
  split
  · exact Nat.le_refl _
  · split
    · split
      · exact Nat.le_refl _
      · split
        · exact Nat.le_refl _
        · exact Nat.le_succ _
    · exact Nat.le_refl _

theorem ups_le_follow (p : LexicalPath) (ss : List Text) : p.ups ≤ (p.follow ss).ups := by
  induction ss generalizing p with
  | nil => exact Nat.le_refl _
  | cons s ss ih =>
    rw [follow_cons]
    exact Nat.le_trans (ups_le_step p s) (ih (p.step s))

/-- Names come from the steps. -/
theorem mem_of_mem_step {p : LexicalPath} {s n : Text} (h : n ∈ (p.step s).names) :
    n ∈ p.names ∨ n = s := by
  rw [step] at h
  split at h
  · exact .inl h
  · split at h
    · split at h
      · exact .inl (List.dropLast_subset _ h)
      · split at h <;> exact .inl h
    · rcases List.mem_append.1 h with old | new
      · exact .inl old
      · exact .inr (List.mem_singleton.1 new)

theorem mem_of_mem_follow {p : LexicalPath} {ss : List Text} {n : Text}
    (h : n ∈ (p.follow ss).names) : n ∈ p.names ∨ n ∈ ss := by
  induction ss generalizing p with
  | nil => exact .inl h
  | cons s ss ih =>
    rcases ih h with first | later
    · rcases mem_of_mem_step first with old | rfl
      · exact .inl old
      · exact .inr List.mem_cons_self
    · exact .inr (List.mem_cons_of_mem _ later)

theorem mem_splitOn_of_mem_names {t n : Text} (h : n ∈ (ofText t).names) :
    n ∈ Text.splitOn '/' t := by
  rcases mem_of_mem_follow h with old | step
  · cases old
  · exact step

/-! ## Normal forms -/

/-- An absolute path does not leave its root, and names are names. -/
structure Reduced (p : LexicalPath) : Prop where
  inside : p.absolute = true → p.ups = 0
  names : ∀ n ∈ p.names, Ordinary n

theorem Reduced.step {p : LexicalPath} (h : p.Reduced) {s : Text} (hs : '/' ∉ s) :
    (p.step s).Reduced := by
  rcases step_cases hs with idle | rfl | name
  · rw [idle]
    exact h
  · by_cases ne : p.names = []
    · obtain ⟨absolute, ups, names⟩ := p
      obtain rfl : names = [] := ne
      cases absolute with
      | false =>
        rw [step_up_relative]
        exact ⟨fun eq => absurd eq (by simp), by simp⟩
      | true =>
        rw [step_up_root]
        exact h
    · rw [step_up p ne]
      exact ⟨h.inside, fun n hn => h.names n (List.dropLast_subset _ hn)⟩
  · rw [step_ordinary p name]
    refine ⟨h.inside, fun n hn => ?_⟩
    rcases List.mem_append.1 hn with old | new
    · exact h.names n old
    · rw [List.mem_singleton.1 new]
      exact name

theorem Reduced.follow {p : LexicalPath} (h : p.Reduced) {ss : List Text}
    (hss : ∀ s ∈ ss, '/' ∉ s) : (p.follow ss).Reduced := by
  induction ss generalizing p with
  | nil => exact h
  | cons s ss ih =>
    obtain ⟨hs, others⟩ := List.forall_mem_cons.1 hss
    exact ih (h.step hs) others

theorem reduced_ofText (t : Text) : (ofText t).Reduced := by
  rw [ofText_eq_follow]
  apply Reduced.follow
  · exact ⟨fun _ => rfl, by simp⟩
  · intro s hs
    exact Text.not_mem_of_mem_splitOn hs

/-- The steps that are written out for a path. -/
def written (p : LexicalPath) : List Text := List.replicate p.ups ['.', '.'] ++ p.names

theorem Reduced.slash {p : LexicalPath} (h : p.Reduced) : ∀ s ∈ p.written, '/' ∉ s ∧ s ≠ [] := by
  intro s hs
  rcases List.mem_append.1 hs with up | name
  · rw [List.eq_of_mem_replicate up]
    decide
  · exact ⟨(h.names s name).slash, (h.names s name).ne_nil⟩

theorem follow_ups (ups n : Nat) :
    follow ⟨false, ups, []⟩ (List.replicate n ['.', '.']) = ⟨false, ups + n, []⟩ := by
  induction n generalizing ups with
  | zero => rfl
  | succ n ih => rw [List.replicate_succ, follow_cons, step_up_relative, ih, Nat.add_right_comm,
      Nat.add_assoc]

/-- Taking the steps that are written out leads to the path. -/
theorem follow_written {p : LexicalPath} (h : p.Reduced) :
    follow ⟨p.absolute, 0, []⟩ p.written = p := by
  rw [written, follow_append]
  obtain ⟨absolute, ups, names⟩ := p
  cases absolute with
  | false =>
    rw [follow_ups, follow_names _ h.names]
    simp
  | true =>
    obtain rfl : ups = 0 := h.inside rfl
    exact follow_names _ h.names

end LexicalPath

namespace Path

/-- Joined steps fall into these steps again. -/
theorem splitOn_joinSteps {ss : List Text} (ne : ss ≠ []) (h : ∀ s ∈ ss, '/' ∉ s) :
    Text.splitOn '/' (joinSteps ss) = ss := by
  rw [Text.splitOn_eq]
  exact List.splitOn_intercalate '/' h ne

/-- Changes of characters that leave slashes alone are made step by step. -/
theorem joinSteps_map {f : Char → Char} (slash : f '/' = '/') (ss : List Text) :
    joinSteps (ss.map (List.map f)) = (joinSteps ss).map f := by
  induction ss with
  | nil => rfl
  | cons s ss ih =>
    cases ss with
    | nil => simp [joinSteps]
    | cons s' ss =>
      rw [joinSteps, List.map_cons, List.map_cons, List.intercalate_cons_cons, ← List.map_cons,
        ← joinSteps, ih, joinSteps, joinSteps, List.intercalate_cons_cons, List.map_append,
        List.map_append, List.map_singleton, slash]

theorem isAbsolute_joinSteps {ss : List Text} (h : ∀ s ∈ ss, '/' ∉ s ∧ s ≠ []) :
    isAbsolute (joinSteps ss) = false := by
  cases ss with
  | nil => rfl
  | cons s ss =>
    obtain ⟨noSlash, ne⟩ := h s List.mem_cons_self
    cases s with
    | nil => exact absurd rfl ne
    | cons c s =>
      have other : c ≠ '/' := fun eq => noSlash (by simp [eq])
      cases ss <;> simp [joinSteps, isAbsolute, Text.startsBy, List.intercalate_cons_cons, other]

end Path

namespace LexicalPath

/-- The text of a path has the meaning of the path. -/
theorem ofText_toText {p : LexicalPath} (h : p.Reduced) : ofText p.toText = p := by
  have relative : Path.isAbsolute (Path.joinSteps p.written) = false :=
    Path.isAbsolute_joinSteps h.slash
  -- the steps of the text are those written out, up to empty ones
  have same : ∀ q : LexicalPath,
      q.follow (Text.splitOn '/' (Path.joinSteps p.written)) = q.follow p.written := by
    intro q
    by_cases none : p.written = []
    · rw [none]
      rfl
    · rw [Path.splitOn_joinSteps none fun s hs => (h.slash s hs).1]
  have text : p.toText = (if p.absolute then ['/'] else []) ++ Path.joinSteps p.written := rfl
  cases absolute : p.absolute with
  | false =>
    rw [absolute] at text
    rw [text]
    show ofText (Path.joinSteps p.written) = p
    rw [ofText_eq_follow, relative, same]
    rw [← absolute]
    exact follow_written h
  | true =>
    rw [absolute] at text
    rw [text]
    show follow ⟨true, 0, []⟩ (Text.splitOn '/' ('/' :: Path.joinSteps p.written)) = p
    have split : Text.splitOn '/' ('/' :: Path.joinSteps p.written) =
        [] :: Text.splitOn '/' (Path.joinSteps p.written) := rfl
    rw [split, follow_cons, step_nil, same, ← absolute]
    exact follow_written h

end LexicalPath

namespace Path

open LexicalPath

/-- The path with `.` and `..` steps carried out and single slashes: the shortest text with its
meaning. -/
def normalized (t : Text) : Text := (ofText t).toText

theorem ofText_normalized (t : Text) : ofText (normalized t) = ofText t :=
  ofText_toText (reduced_ofText t)

/-- The normal form of a normal form is the normal form itself. -/
theorem normalized_normalized (t : Text) : normalized (normalized t) = normalized t := by
  rw [normalized, ofText_normalized, normalized]

theorem normalized_inj {s t : Text} (h : normalized s = normalized t) : ofText s = ofText t := by
  rw [← ofText_normalized s, ← ofText_normalized t, h]

theorem steps_joinSteps {ss : List Text} (ne : ss ≠ []) (h : ∀ s ∈ ss, '/' ∉ s ∧ s ≠ []) :
    steps (joinSteps ss) = ss := by
  rw [steps, isAbsolute_joinSteps h]
  exact splitOn_joinSteps ne fun s hs => (h s hs).1

/-- The normal form of a relative path has the steps that are written out for it. -/
theorem steps_normalized {t : Text} (relative : isAbsolute t = false)
    (some : (ofText t).written ≠ []) : steps (normalized t) = (ofText t).written := by
  have text : normalized t = joinSteps (ofText t).written := by
    rw [normalized, toText, absolute_ofText, relative]
    rfl
  rw [text]
  exact steps_joinSteps some (reduced_ofText t).slash

/-- If a relative path leaves the place it is seen from, its normal form begins with a step up. -/
theorem up_of_leaves {t : Text} (relative : isAbsolute t = false) (left : (ofText t).ups ≠ 0) :
    (steps (normalized t)).head? = some ['.', '.'] := by
  obtain ⟨n, hn⟩ := Nat.exists_eq_succ_of_ne_zero left
  have first : (ofText t).written =
      ['.', '.'] :: (List.replicate n ['.', '.'] ++ (ofText t).names) := by
    rw [written, hn, List.replicate_succ, List.cons_append]
  rw [steps_normalized relative, first]
  · rfl
  · rw [first]
    exact List.cons_ne_nil _ _

theorem ups_eq_zero {t : Text} (relative : isAbsolute t = false)
    (noUp : ['.', '.'] ∉ steps (normalized t)) : (ofText t).ups = 0 := by
  apply Decidable.byContradiction
  intro left
  exact noUp (List.mem_of_mem_head? (up_of_leaves relative left))

/-- If it does not, its normal form has its names as steps. -/
theorem steps_eq_names {t : Text} (relative : isAbsolute t = false) (inside : (ofText t).ups = 0)
    (names : (ofText t).names ≠ []) : steps (normalized t) = (ofText t).names := by
  have all : (ofText t).written = (ofText t).names := by
    rw [written, inside]
    rfl
  rw [steps_normalized relative, all]
  rwa [all]

/-- Without names, nothing is left of it. -/
theorem normalized_eq_nil {t : Text} (relative : isAbsolute t = false)
    (inside : (ofText t).ups = 0) (none : (ofText t).names = []) : normalized t = [] := by
  rw [normalized, toText, absolute_ofText, relative, inside, none]
  rfl

/-- With names, its normal form is not empty and has no steps up. -/
theorem names_of_stays {t : Text} (relative : isAbsolute t = false) (inside : (ofText t).ups = 0)
    (names : (ofText t).names ≠ []) :
    normalized t ≠ [] ∧ ['.', '.'] ∉ steps (normalized t) := by
  have steps := steps_eq_names relative inside names
  have ordinary := (reduced_ofText t).names
  constructor
  · intro empty
    rw [empty] at steps
    exact (ordinary [] (by rw [← steps]; decide)).ne_nil rfl
  · intro up
    rw [steps] at up
    exact (ordinary _ up).ne_up rfl

end Path

/-! ## Names below a root -/

namespace LexicalPath

theorem below?_of_relative (root : LexicalPath) {p : LexicalPath} (relative : p.absolute = false) :
    below? root p = if p.ups = 0 ∧ p.names ≠ [] then some p.names else none := by
  rw [below?, relative]
  by_cases stays : p.ups = 0 <;> by_cases names : p.names = [] <;> simp [stays, names]

theorem below?_of_absolute {root p : LexicalPath} (hroot : root.absolute = true)
    (hp : p.absolute = true) {names : List Text} :
    below? root p = some names ↔ names ≠ [] ∧ p.names = root.names ++ names := by
  rw [below?, hp, if_pos rfl, behind?, if_pos hroot]
  constructor
  · intro h
    obtain ⟨h, some⟩ := Option.filter_eq_some_iff.1 h
    split at h
    · rename_i front
      obtain ⟨rest, eq⟩ := List.isPrefixOf_iff_prefix.1 front
      cases h
      refine ⟨by simpa using some, ?_⟩
      rw [← eq, List.drop_left]
    · cases h
  · rintro ⟨ne, eq⟩
    have front : root.names.isPrefixOf p.names = true := by
      rw [eq]
      exact List.isPrefixOf_iff_prefix.2 (List.prefix_append _ _)
    rw [if_pos front, eq, List.drop_left]
    simp [ne]

end LexicalPath

end TierLint
