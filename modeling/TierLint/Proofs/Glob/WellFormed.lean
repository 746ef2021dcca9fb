import TierLint.Proofs.Glob.Segments

/-!
# Which texts are globs

Whether a text is a glob does not depend on what its tokens are: it closes its classes and groups
and does not end with an escape (`isWellFormed`, `isOk_parse`). Slashes may stand anywhere, also
inside of a class or group or behind a backslash. Where none does, each segment is a glob if the
whole text is one (`isOk_parse_of_mem_splitOn`); a segment of `.{a,b/c}` is none.
-/

set_option autoImplicit false

namespace TierLint.Glob

/-! ## Well-formed texts -/

/-- The text closes what is open: its classes, the `depth` groups that are open in front of it, and
the groups that it opens itself. It does not end with an escape. -/
def isWellFormed (depth : Nat) (t : Text) : Bool :=
  match t with
  | [] => depth == 0
  | '[' :: rest =>
    match _h : readClass rest with
    | .ok (_, after) => isWellFormed depth after
    | .error _ => false
  | '{' :: rest => isWellFormed (depth + 1) rest
  | '}' :: rest => 0 < depth && isWellFormed (depth - 1) rest
  | '\\' :: [] => false
  | '\\' :: _ :: rest => isWellFormed depth rest
  | _ :: rest => isWellFormed depth rest
termination_by t.length
decreasing_by
  all_goals first
    | exact Nat.lt_succ_of_lt (readClass_length_lt _h)
    | (simp; try omega)

/-- The character neither opens nor closes anything, and is no backslash. -/
abbrev IsOrdinary (c : Char) : Prop := c ≠ '[' ∧ c ≠ '{' ∧ c ≠ '}' ∧ c ≠ '\\'

section Steps

variable (depth : Nat)

theorem isWellFormed_plain {c : Char} (plain : IsOrdinary c) (t : Text) :
    isWellFormed depth (c :: t) = isWellFormed depth t := by
  obtain ⟨class_, opening, closing, escape⟩ := plain
  rw [isWellFormed]
  · exact class_
  · exact opening
  · exact closing
  · exact fun eq _ => escape eq
  · exact fun _ _ eq _ => escape eq

theorem isWellFormed_class {t after : Text} {token : Token} (h : readClass t = .ok (token, after)) :
    isWellFormed depth ('[' :: t) = isWellFormed depth after := by
  rw [isWellFormed]
  split
  · rename_i same
    rw [h] at same
    cases same
    rfl
  · rename_i other
    rw [h] at other
    cases other

theorem isWellFormed_class_error {t : Text} {e : Error} (h : readClass t = .error e) :
    isWellFormed depth ('[' :: t) = false := by
  rw [isWellFormed]
  split
  · rename_i other
    rw [h] at other
    cases other
  · rfl

theorem isWellFormed_openGroup (t : Text) :
    isWellFormed depth ('{' :: t) = isWellFormed (depth + 1) t := by
  rw [isWellFormed]

theorem isWellFormed_closeGroup (t : Text) :
    isWellFormed depth ('}' :: t) = (0 < depth && isWellFormed (depth - 1) t) := by
  rw [isWellFormed]

theorem isWellFormed_escape (c : Char) (t : Text) :
    isWellFormed depth ('\\' :: c :: t) = isWellFormed depth t := by
  rw [isWellFormed]

end Steps

/-! ## Reading -/

theorem groups_pushDoubleStar (p : Progress) (form : Progress.DoubleStar) :
    (p.pushDoubleStar form).groups = p.groups := by
  have replaced : ∀ t, (p.replaceLast t).groups = p.groups := by
    intro t
    unfold Progress.replaceLast
    split <;> rfl
  cases form with
  | twoStars | leading => rfl
  | inner | below => exact replaced _

theorem length_groups_comma (p : Progress) : p.comma.groups.length = p.groups.length := by
  obtain ⟨tokens, groups⟩ := p
  cases groups <;> rfl

/-- What a double star takes is a slash. -/
theorem eq_slash_of_takesSlash {p : Progress} {before : Option Char} {c : Char}
    (takes : (p.doubleStar before (some c)).takesSlash = true) : c = '/' := by
  by_contra other
  have form : p.doubleStar before (some c) = .twoStars ∨ p.doubleStar before (some c) = .below := by
    simp only [Progress.doubleStar, Option.all_some, beq_iff_eq, other, if_false]
    split
    · exact .inl rfl
    · split
      · split
        · exact .inr rfl
        · exact .inl rfl
      · exact .inl rfl
  rcases form with form | form <;> simp [form, Progress.DoubleStar.takesSlash] at takes

/-- A text is read exactly if it is well-formed, whatever the tokens in front of it are. -/
theorem isOk_readFrom (before : Option Char) (p : Progress) (t : Text) :
    (readFrom before p t).isOk = isWellFormed p.groups.length t := by
  fun_induction readFrom before p t with
  | case1 _ p closed =>
    rw [List.isEmpty_iff.1 closed, isWellFormed]
    rfl
  | case2 _ p opened =>
    obtain ⟨tokens, groups⟩ := p
    cases groups with
    | nil => exact absurd rfl opened
    | cons g groups =>
      rw [isWellFormed]
      rfl
  | case3 _ _ _ ih =>
    rw [ih, isWellFormed_plain _ (by decide)]
    rfl
  | case4 _ p rest form takes ih =>
    rw [ih, groups_pushDoubleStar, isWellFormed_plain _ (by decide),
      isWellFormed_plain _ (by decide)]
    -- the slash that the double star takes does not count either
    cases rest with
    | nil => rfl
    | cons c rest =>
      obtain rfl := eq_slash_of_takesSlash takes
      exact (isWellFormed_plain _ (by decide) rest).symm
  | case5 _ p rest form _ ih =>
    rw [ih, groups_pushDoubleStar, isWellFormed_plain _ (by decide),
      isWellFormed_plain _ (by decide)]
  | case6 _ _ _ _ ih =>
    rw [ih, isWellFormed_plain _ (by decide)]
    rfl
  | case7 _ _ _ _ _ class_ ih =>
    rw [ih, isWellFormed_class _ class_]
    rfl
  | case8 _ _ _ _ class_ =>
    rw [isWellFormed_class_error _ class_]
    rfl
  | case9 _ p _ ih =>
    rw [ih, isWellFormed_openGroup]
    rfl
  | case10 _ p _ p' closes ih =>
    obtain ⟨tokens, groups⟩ := p
    cases groups with
    | nil => cases closes
    | cons g outer =>
      cases closes
      rw [ih, isWellFormed_closeGroup]
      simp
  | case11 _ p _ closes =>
    obtain ⟨tokens, groups⟩ := p
    cases groups with
    | nil =>
      rw [isWellFormed_closeGroup]
      rfl
    | cons g outer => cases closes
  | case12 _ _ _ ih => rw [ih, length_groups_comma, isWellFormed_plain _ (by decide)]
  | case13 =>
    rw [isWellFormed]
    rfl
  | case14 _ _ _ _ ih =>
    rw [ih, isWellFormed_escape]
    rfl
  | case15 _ _ c _ _ _ _ class_ opening closing _ alone escape ih =>
    have plain : IsOrdinary c := ⟨class_, opening, closing, Text.ne_backslash_of_cons alone escape⟩
    rw [ih, isWellFormed_plain _ plain]
    rfl

/-- A text is a glob exactly if it is well-formed. -/
theorem isOk_parse (t : Text) : (parse t).isOk = isWellFormed 0 t := by
  have read := isOk_readFrom none ⟨[], []⟩ t
  rw [parse]
  cases tokens : readFrom none ⟨[], []⟩ t with
  | error e =>
    rw [tokens] at read
    exact read
  | ok ts =>
    rw [tokens] at read
    exact read

/-! ## Segments -/

/-- Slashes separate segments: none stands inside a class, behind a backslash, or inside a group,
be it one of the `depth` groups that are open in front of the text or one that it opens itself. -/
def slashesSeparate (depth : Nat) (t : Text) : Bool :=
  match t with
  | [] => true
  | '/' :: rest => depth == 0 && slashesSeparate depth rest
  | '[' :: rest =>
    match _h : readClass rest with
    | .ok (_, after) =>
      decide ('/' ∉ rest.take (rest.length - after.length)) && slashesSeparate depth after
    | .error _ => true
  | '{' :: rest => slashesSeparate (depth + 1) rest
  | '}' :: rest => slashesSeparate (depth - 1) rest
  | '\\' :: c :: rest => c != '/' && slashesSeparate depth rest
  | _ :: rest => slashesSeparate depth rest
termination_by t.length
decreasing_by
  all_goals first
    | exact Nat.lt_succ_of_lt (readClass_length_lt _h)
    | (simp; try omega)

/-- The first segment closes the `depth` groups that are open in front of the text, and the others
are well-formed by themselves. -/
def SegmentsWellFormed (depth : Nat) (t : Text) : Prop :=
  ∃ first others, Text.splitOn '/' t = first :: others ∧ isWellFormed depth first = true ∧
    ∀ s ∈ others, isWellFormed 0 s = true

/-- What stands in front of the first slash belongs to the first segment. -/
theorem SegmentsWellFormed.append {depth depth' : Nat} {a t : Text}
    (h : SegmentsWellFormed depth' t) (slash : '/' ∉ a)
    (step : ∀ t, isWellFormed depth (a ++ t) = isWellFormed depth' t) :
    SegmentsWellFormed depth (a ++ t) := by
  obtain ⟨first, others, pieces, front, behind⟩ := h
  refine ⟨a ++ first, others, Text.splitOn_append_of_not_mem slash pieces, ?_, behind⟩
  rw [step, front]

/-- A well-formed text whose slashes separate segments has well-formed segments. -/
theorem segmentsWellFormed {depth : Nat} {t : Text} (h : isWellFormed depth t = true)
    (separate : slashesSeparate depth t = true) : SegmentsWellFormed depth t := by
  fun_induction slashesSeparate depth t with
  | case1 depth =>
    refine ⟨[], [], rfl, h, ?_⟩
    intro s hs
    cases hs
  | case2 depth rest ih =>
    obtain ⟨outside, separate⟩ := Bool.and_eq_true_iff.1 separate
    obtain rfl : depth = 0 := beq_iff_eq.1 outside
    rw [isWellFormed_plain _ (by decide)] at h
    obtain ⟨first, others, pieces, front, behind⟩ := ih h separate
    -- the slash stands behind an empty segment
    refine ⟨[], first :: others, ?_, ?_, List.forall_mem_cons.2 ⟨front, behind⟩⟩
    · rw [← pieces]
      exact Text.splitOn_append_cons '/' [] rest
    · rw [isWellFormed]
      rfl
  | case3 depth rest token after class_ ih =>
    obtain ⟨inside, rfl, read⟩ := exists_class class_
    rw [isWellFormed_class _ class_] at h
    rw [List.length_append, Nat.add_sub_cancel, List.take_left, Bool.and_eq_true,
      decide_eq_true_eq] at separate
    have slash : '/' ∉ '[' :: inside := by simpa using separate.1
    exact (ih h separate.2).append slash fun t => isWellFormed_class depth (read t)
  | case4 depth rest e class_ =>
    rw [isWellFormed_class_error _ class_] at h
    cases h
  | case5 depth rest ih =>
    rw [isWellFormed_openGroup] at h
    exact (ih h separate).append (a := ['{']) (by decide) (isWellFormed_openGroup depth)
  | case6 depth rest ih =>
    rw [isWellFormed_closeGroup, Bool.and_eq_true] at h
    apply (ih h.2 separate).append (a := ['}']) (by decide)
    intro t
    rw [List.singleton_append, isWellFormed_closeGroup, h.1, Bool.true_and]
  | case7 depth c rest ih =>
    obtain ⟨other, separate⟩ := Bool.and_eq_true_iff.1 separate
    rw [isWellFormed_escape] at h
    have slash : '/' ∉ ['\\', c] := by simpa using (bne_iff_ne.1 other).symm
    exact (ih h separate).append slash (isWellFormed_escape depth c)
  | case8 depth c rest slash class_ opening closing escape ih =>
    by_cases last : c = '\\' ∧ rest = []
    · obtain ⟨rfl, rfl⟩ := last
      rw [isWellFormed] at h
      cases h
    · have backslash := Text.ne_backslash_of_cons (fun eq nil => last ⟨eq, nil⟩) escape
      have plain : IsOrdinary c := ⟨class_, opening, closing, backslash⟩
      rw [isWellFormed_plain _ plain] at h
      have alone : '/' ∉ [c] := by simpa using fun eq => slash eq.symm
      exact (ih h separate).append alone (isWellFormed_plain depth plain)

/-- The segments of a glob whose slashes separate segments are globs. -/
theorem isOk_parse_of_mem_splitOn {t s : Text} (ok : (parse t).isOk = true)
    (separate : slashesSeparate 0 t = true) (h : s ∈ Text.splitOn '/' t) :
    (parse s).isOk = true := by
  rw [isOk_parse] at ok ⊢
  obtain ⟨first, others, pieces, front, behind⟩ := segmentsWellFormed ok separate
  rw [pieces] at h
  rcases List.mem_cons.1 h with rfl | h
  · exact front
  · exact behind s h

end TierLint.Glob
