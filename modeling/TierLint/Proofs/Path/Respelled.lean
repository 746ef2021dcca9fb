import Mathlib.Logic.Relation
import TierLint.Proofs.Path.Lexical

/-!
# Paths with the same meaning

Some steps lead nowhere from any place: empty ones, `.`, and a name with `..` behind it. So a path
that is respelled by putting such steps between its own keeps its meaning
(`ofText_eq_of_respelled`).

A relative path that does not leave the place it is seen from takes away only names of its own, so
it means the same names behind any place (`follow_eq_append`), and joining it to a root puts its
names behind those of the root (`ofText_join_of_inside`).
-/

set_option autoImplicit false

namespace TierLint

open LexicalPath

namespace Path

/-! ## Joining -/

/-- A path seen from another one is absolute if that is. -/
theorem isAbsolute_join (a : Text) {b : Text} (relative : isAbsolute b = false) :
    isAbsolute (join a b) = isAbsolute a := by
  cases a with
  | nil =>
    rw [join, List.isEmpty_nil, Bool.or_true, if_pos rfl, relative]
    rfl
  | cons c a =>
    rw [join, relative]
    split
    · rename_i impossible
      cases impossible
    · split <;> rfl

/-- From any place, a joined path leads along the first path and then along the second. -/
theorem follow_join (q : LexicalPath) (a : Text) {b : Text} (relative : isAbsolute b = false) :
    q.follow (Text.splitOn '/' (join a b)) =
      (q.follow (Text.splitOn '/' a)).follow (Text.splitOn '/' b) := by
  cases a with
  | nil => simp [join, Text.splitOn]
  | cons c a =>
    rw [join, relative]
    cases ends : Text.endsBy (· == '/') (c :: a) with
    | false =>
      simp only [List.isEmpty_cons, Bool.or_self, Bool.false_eq_true, if_false]
      rw [Text.splitOn_append_cons, follow_append]
    | true =>
      simp only [List.isEmpty_cons, Bool.or_self, Bool.false_eq_true, if_false, if_true]
      -- the slash at the end of the first path is the one between the two
      obtain ⟨front, eq⟩ : ∃ front, c :: a = front ++ ['/'] := by
        obtain ⟨last, hlast, slash⟩ : ∃ last, (c :: a).getLast? = some last ∧ last = '/' := by
          simpa [Text.endsBy, Option.any_eq_true] using ends
        rw [slash, List.getLast?_eq_some_iff] at hlast
        exact hlast
      rw [eq, List.append_assoc, List.singleton_append, Text.splitOn_append_cons,
        Text.splitOn_append_cons, follow_append, follow_append]
      rfl

/-- A relative path leads on from where the other one leads to. -/
theorem ofText_join (a : Text) {b : Text} (relative : isAbsolute b = false) :
    ofText (join a b) = (ofText a).follow (Text.splitOn '/' b) := by
  rw [ofText_eq_follow, isAbsolute_join a relative, follow_join _ a relative, ofText_eq_follow]

/-! ## Respelling -/

/-- A way from a place to the place itself: a period, or a name and back. -/
inductive Idle : Text → Prop
  | dot : Idle ['.']
  | back {x : Text} : Ordinary x → Idle (x ++ ['/', '.', '.'])

theorem Idle.isAbsolute {d : Text} (h : Idle d) : isAbsolute d = false := by
  cases h with
  | dot => rfl
  | @back x ordinary =>
    cases x with
    | nil => exact absurd rfl ordinary.ne_nil
    | cons c x =>
      show (c == '/') = false
      rw [beq_eq_false_iff_ne]
      intro eq
      exact ordinary.slash (by simp [eq])

/-- It leads nowhere. -/
theorem Idle.follow {d : Text} (h : Idle d) (p : LexicalPath) :
    p.follow (Text.splitOn '/' d) = p := by
  cases h with
  | dot => rfl
  | @back x ordinary =>
    have pieces : Text.splitOn '/' (x ++ ['/', '.', '.']) = [x, ['.', '.']] := by
      rw [Text.splitOn_eq, List.splitOn_append_cons_self_of_not_mem ordinary.slash]
      rfl
    rw [pieces, follow_cons, follow_cons, follow_nil, step_ordinary p ordinary, step_up]
    · simp
    · simp

/-- One way to write a path with more steps that lead nowhere: between its steps and in front of
them, behind them, by doubling a slash, and by a slash at the end. -/
inductive Respelled : Text → Text → Prop
  | inserted {d : Text} (a : Text) {b : Text} : Idle d → isAbsolute b = false →
      Respelled (join a b) (join (join a d) b)
  | appended {d : Text} (a : Text) : Idle d → Respelled a (join a d)
  | doubled (a b : Text) : Respelled (a ++ '/' :: b) (a ++ '/' :: '/' :: b)
  | trailing {a : Text} : a ≠ [] → Respelled a (a ++ ['/'])

/-- A respelled path has the same meaning. -/
theorem Respelled.ofText_eq {p q : Text} (h : Respelled p q) : ofText p = ofText q := by
  cases h with
  | inserted a idle relative =>
    rw [ofText_join _ relative, ofText_join _ relative, ofText_join _ idle.isAbsolute, idle.follow]
  | appended _ idle => rw [ofText_join _ idle.isAbsolute, idle.follow]
  | doubled a b =>
    have start : isAbsolute (a ++ '/' :: '/' :: b) = isAbsolute (a ++ '/' :: b) := by
      cases a <;> rfl
    rw [ofText_eq_follow, ofText_eq_follow, start, Text.splitOn_append_cons,
      Text.splitOn_append_cons, follow_append, follow_append]
    rfl
  | @trailing _ ne =>
    have start : isAbsolute (p ++ ['/']) = isAbsolute p := by
      cases p with
      | nil => exact absurd rfl ne
      | cons c p => rfl
    rw [ofText_eq_follow, ofText_eq_follow, start, Text.splitOn_append_cons, follow_append]
    rfl

/-- So has a path that is respelled any number of times, forwards and backwards. -/
theorem ofText_eq_of_respelled {p q : Text} (h : Relation.EqvGen Respelled p q) :
    ofText p = ofText q := by
  induction h with
  | rel p q h => exact h.ofText_eq
  | refl p => rfl
  | symm p q _ ih => exact ih.symm
  | trans p q r _ _ first second => exact first.trans second

end Path

namespace LexicalPath

/-- Steps that do not leave the names they begin with do the same to these names behind others. -/
theorem follow_eq_append (q : LexicalPath) {ss : List Text} (h : ∀ s ∈ ss, '/' ∉ s)
    {names : List Text} (inside : (follow ⟨false, 0, names⟩ ss).ups = 0) :
    follow { q with names := q.names ++ names } ss =
      { q with names := q.names ++ (follow ⟨false, 0, names⟩ ss).names } := by
  induction ss generalizing names with
  | nil => rfl
  | cons s ss ih =>
    obtain ⟨hs, others⟩ := List.forall_mem_cons.1 h
    rcases step_cases hs with idle | rfl | name
    · rw [follow_cons, follow_cons, idle, idle]
      rw [follow_cons, idle] at inside
      exact ih others inside
    · by_cases none : names = []
      · -- the path would be left
        rw [none, follow_cons, step_up_relative] at inside
        have left := ups_le_follow ⟨false, 0 + 1, []⟩ ss
        rw [inside] at left
        exact absurd left (by simp)
      · rw [follow_cons, step_up _ none] at inside
        have some : q.names ++ names ≠ [] := by simp [none]
        rw [follow_cons, follow_cons, step_up _ some, step_up ⟨false, 0, names⟩ none]
        simp only [List.dropLast_append_of_ne_nil none]
        exact ih others inside
    · rw [follow_cons, step_ordinary _ name] at inside
      rw [follow_cons, follow_cons, step_ordinary _ name, step_ordinary _ name]
      simp only [List.append_assoc]
      exact ih others inside

/-- Joined to a root, a path that does not leave its place means its names behind the root. -/
theorem ofText_join_of_inside (root : Text) {p : Text} (relative : Path.isAbsolute p = false)
    (inside : (ofText p).ups = 0) :
    ofText (Path.join root p) =
      { ofText root with names := (ofText root).names ++ (ofText p).names } := by
  rw [ofText_eq_follow, relative] at inside
  have append := follow_eq_append (ofText root) (fun _ => Text.not_mem_of_mem_splitOn) inside
  rw [List.append_nil] at append
  rw [Path.ofText_join root relative, ofText_eq_follow p, relative]
  exact append

end LexicalPath

end TierLint
