import TierLint.Text

/-!
# Cutting texts

A cut at a byte offset succeeds exactly at the end of a character (`splitAtByte_eq_some_iff`), so
`slice?` returns the part of a text between two such places. Trimming cuts too: what
`dropEndWhile` keeps is a beginning of the text. Splitting at a separator is that of the library
(`splitOn_eq`).

`lineBreaks` lists the line breaks of a text with their offsets. A carriage return belongs to a line
break only directly in front of a line feed, and then always.
-/

set_option autoImplicit false

namespace TierLint.Text

/-! ## Byte offsets -/

theorem splitAtByte_append (a b : Text) : splitAtByte (byteLength a) (a ++ b) = some (a, b) := by
  induction a with
  | nil => cases b <;> rfl
  | cons c a ih =>
    obtain ⟨n, hn⟩ : ∃ n, c.utf8Size + byteLength a = n + 1 :=
      ⟨c.utf8Size + byteLength a - 1, by have := c.utf8Size_pos; omega⟩
    rw [byteLength_cons, hn, List.cons_append, splitAtByte, if_pos (by omega),
      show n + 1 - c.utf8Size = byteLength a by omega, ih]
    rfl

theorem eq_of_splitAtByte {n : Nat} {t a b : Text} (h : splitAtByte n t = some (a, b)) :
    t = a ++ b ∧ byteLength a = n := by
  fun_induction splitAtByte n t generalizing a b with
  | case1 t =>
    cases h
    exact ⟨rfl, rfl⟩
  | case2 => simp at h
  | case3 n c t fits ih =>
    obtain ⟨⟨a', b'⟩, h', eq⟩ := Option.map_eq_some_iff.1 h
    cases eq
    obtain ⟨rfl, length⟩ := ih h'
    refine ⟨rfl, ?_⟩
    rw [byteLength_cons, length]
    omega
  | case4 => simp at h

/-- A cut succeeds exactly at the end of a character. -/
theorem splitAtByte_eq_some_iff {n : Nat} {t a b : Text} :
    splitAtByte n t = some (a, b) ↔ t = a ++ b ∧ byteLength a = n := by
  constructor
  · exact eq_of_splitAtByte
  · rintro ⟨rfl, rfl⟩
    exact splitAtByte_append a b

/-- Where a text is cut is known by the number of bytes in front. -/
theorem eq_of_byteLength_eq {a b c d : Text} (h : a ++ b = c ++ d)
    (size : byteLength a = byteLength c) : a = c := by
  have cut := splitAtByte_append a b
  rw [h, size, splitAtByte_append] at cut
  cases cut
  rfl

/-- The part of a text from byte `start` to byte `stop`, if both are ends of characters. -/
def slice? (start stop : Nat) (t : Text) : Option Text :=
  if start ≤ stop then do
    let (_, behind) ← splitAtByte start t
    let (part, _) ← splitAtByte (stop - start) behind
    some part
  else
    none

theorem slice?_append (a b c : Text) :
    slice? (byteLength a) (byteLength a + byteLength b) (a ++ b ++ c) = some b := by
  rw [slice?, if_pos (Nat.le_add_right ..), List.append_assoc, splitAtByte_append,
    Nat.add_sub_cancel_left]
  simp [splitAtByte_append]

/-! ## Beginnings and ends -/

theorem dropEndWhile_cons (p : Char → Bool) (c : Char) (t : Text) :
    dropEndWhile p (c :: t) =
      if (dropEndWhile p t).isEmpty && p c then [] else c :: dropEndWhile p t := rfl

theorem dropEndWhile_isPrefix (p : Char → Bool) (t : Text) : dropEndWhile p t <+: t := by
  induction t with
  | nil => exact List.nil_prefix
  | cons c t ih =>
    rw [dropEndWhile_cons]
    split
    · exact List.nil_prefix
    · exact List.prefix_cons_inj c |>.2 ih

theorem append_drop_of_isPrefix {a t : Text} (h : a <+: t) : a ++ t.drop a.length = t := by
  obtain ⟨b, rfl⟩ := h
  rw [List.drop_left]

theorem dropEndWhile_append_drop (p : Char → Bool) (t : Text) :
    dropEndWhile p t ++ t.drop (dropEndWhile p t).length = t :=
  append_drop_of_isPrefix (dropEndWhile_isPrefix p t)

/-- Nothing is dropped behind a last character that stays. -/
theorem dropEndWhile_eq_self {p : Char → Bool} {t : Text} (h : endsBy p t = false) :
    dropEndWhile p t = t := by
  induction t with
  | nil => rfl
  | cons c t ih =>
    cases t with
    | nil =>
      have stays : p c = false := h
      rw [dropEndWhile_cons, stays, Bool.and_false]
      rfl
    | cons d t =>
      have rest : dropEndWhile p (d :: t) = d :: t := ih h
      rw [dropEndWhile_cons, rest]
      rfl

/-- Characters at the end that are all dropped leave what is left of the text in front of them. -/
theorem dropEndWhile_append_of_all {p : Char → Bool} {u : Text} (h : u.all p = true) (t : Text) :
    dropEndWhile p (t ++ u) = dropEndWhile p t := by
  have nothing : dropEndWhile p u = [] := by
    induction u with
    | nil => rfl
    | cons c u ih =>
      rw [List.all_cons, Bool.and_eq_true] at h
      rw [dropEndWhile_cons, ih h.2, h.1]
      rfl
  rw [dropEndWhile] at nothing
  rw [dropEndWhile, dropEndWhile, List.foldr_append, nothing]

theorem trimEnd_append_drop (t : Text) : trimEnd t ++ t.drop (trimEnd t).length = t :=
  dropEndWhile_append_drop _ t

theorem indentation_append_unindented (t : Text) : indentation t ++ unindented t = t :=
  List.takeWhile_append_dropWhile

theorem eq_cons_of_startsBy {c : Char} {t : Text} (h : startsBy (· == c) t = true) :
    ∃ rest, t = c :: rest := by
  cases t with
  | nil => cases h
  | cons d rest => exact ⟨rest, by rw [show d = c by simpa [startsBy] using h]⟩

/-- A character is no backslash if it is neither one at the end of a text nor one that escapes. -/
theorem ne_backslash_of_cons {c : Char} {t : Text} (alone : c = '\\' → t = [] → False)
    (escape : ∀ d u, c = '\\' → t = d :: u → False) : c ≠ '\\' := by
  intro eq
  cases t with
  | nil => exact alone eq rfl
  | cons d t => exact escape d t eq rfl

/-! ## Separators -/

theorem splitOn_eq (sep : Char) (t : Text) : splitOn sep t = List.splitOn sep t := by
  induction t with
  | nil => rfl
  | cons c t ih =>
    have step : splitOn sep (c :: t) =
        if c == sep then [] :: splitOn sep t
        else (c :: (splitOn sep t).headD []) :: (splitOn sep t).tail := rfl
    rw [step, List.splitOn_cons_eq_if_modifyHead, ih]
    cases pieces : List.splitOn sep t with
    | nil => exact absurd pieces (List.splitOn_ne_nil sep t)
    | cons p ps => rfl

/-- A text is its pieces, put together again. -/
theorem intercalate_splitOn (sep : Char) (t : Text) : [sep].intercalate (splitOn sep t) = t := by
  rw [splitOn_eq]
  exact List.intercalate_splitOn sep

theorem splitOn_injective (sep : Char) {s t : Text} (h : splitOn sep s = splitOn sep t) :
    s = t := by
  rw [← intercalate_splitOn sep s, h, intercalate_splitOn]

/-- A separator separates the pieces in front of it from those behind. -/
theorem splitOn_append_cons (sep : Char) (a b : Text) :
    splitOn sep (a ++ sep :: b) = splitOn sep a ++ splitOn sep b := by
  rw [splitOn_eq, splitOn_eq, splitOn_eq, List.splitOn_append_cons_self]

/-- What stands in front of the first separator belongs to the first piece. -/
theorem splitOn_append_of_not_mem {sep : Char} {a t first : Text} {others : List Text}
    (h : sep ∉ a) (pieces : splitOn sep t = first :: others) :
    splitOn sep (a ++ t) = (a ++ first) :: others := by
  induction a with
  | nil => exact pieces
  | cons c a ih =>
    have rest := ih fun mem => h (List.mem_cons_of_mem c mem)
    have ne : c ≠ sep := fun eq => h (eq ▸ List.mem_cons_self)
    rw [splitOn_eq] at rest ⊢
    rw [List.cons_append, List.splitOn_cons_eq_if_modifyHead, rest, if_neg (by simpa using ne)]
    rfl

/-- The pieces between separators contain none. -/
theorem not_mem_of_mem_splitOn {sep : Char} {t piece : Text} (h : piece ∈ splitOn sep t) :
    sep ∉ piece := by
  rw [splitOn_eq] at h
  induction t generalizing piece with
  | nil =>
    obtain rfl : piece = [] := by simpa using h
    exact List.not_mem_nil
  | cons c t ih =>
    rw [List.splitOn_cons_eq_if_modifyHead] at h
    split at h
    · rcases List.mem_cons.1 h with rfl | h
      · exact List.not_mem_nil
      · exact ih h
    · rename_i other
      cases pieces : List.splitOn sep t with
      | nil => exact absurd pieces (List.splitOn_ne_nil sep t)
      | cons p ps =>
        rw [pieces] at h ih
        rcases List.mem_cons.1 h with rfl | h
        · have first := ih List.mem_cons_self
          intro mem
          rcases List.mem_cons.1 mem with rfl | mem
          · simp at other
          · exact first mem
        · exact ih (List.mem_cons_of_mem p h)

/-- A text is its only piece exactly if it has no separator. -/
theorem splitOn_eq_singleton_iff {sep : Char} {t n : Text} :
    splitOn sep t = [n] ↔ t = n ∧ sep ∉ n := by
  constructor
  · intro h
    constructor
    · rw [← intercalate_splitOn sep t, h, List.intercalate_singleton]
    · exact not_mem_of_mem_splitOn (h ▸ List.mem_singleton_self n)
  · rintro ⟨rfl, alone⟩
    rw [splitOn_eq]
    exact List.splitOn_eq_singleton alone

/-- Pieces on both sides are those in front of a separator and those behind it. -/
theorem cut_of_splitOn {sep : Char} {t : Text} {xs ys : List Text} (hx : xs ≠ []) (hy : ys ≠ [])
    (h : splitOn sep t = xs ++ ys) :
    ∃ a b, t = a ++ sep :: b ∧ splitOn sep a = xs ∧ splitOn sep b = ys := by
  have pieces : ∀ x ∈ xs ++ ys, sep ∉ x := by
    intro x hx
    exact not_mem_of_mem_splitOn (h ▸ hx)
  have front : splitOn sep ([sep].intercalate xs) = xs := by
    rw [splitOn_eq]
    exact List.splitOn_intercalate sep (fun x hx => pieces x (List.mem_append_left _ hx)) hx
  have back : splitOn sep ([sep].intercalate ys) = ys := by
    rw [splitOn_eq]
    exact List.splitOn_intercalate sep (fun y hy => pieces y (List.mem_append_right _ hy)) hy
  refine ⟨[sep].intercalate xs, [sep].intercalate ys, ?_, front, back⟩
  apply splitOn_injective sep
  rw [h, splitOn_append_cons, front, back]

/-- The pieces between separators are parts of the text. -/
theorem mem_of_mem_splitOn {sep c : Char} {t piece : Text} (h : piece ∈ splitOn sep t)
    (hc : c ∈ piece) : c ∈ t := by
  rw [← intercalate_splitOn sep t]
  generalize splitOn sep t = pieces at h ⊢
  induction pieces with
  | nil => simp at h
  | cons p ps ih =>
    cases ps with
    | nil =>
      rw [List.intercalate_singleton]
      rwa [List.mem_singleton.1 h] at hc
    | cons q qs =>
      rw [List.intercalate_cons_cons]
      rcases List.mem_cons.1 h with rfl | h
      · exact List.mem_append_left _ (List.mem_append_left _ hc)
      · exact List.mem_append_right _ (ih h)

/-! ## Line breaks -/

/-- The line breaks of a text that stands at byte `start`: where they stand, and what they are. -/
def lineBreaks (start : Nat) : Text → List (Nat × Text)
  | [] => []
  | '\r' :: '\n' :: rest => (start, ['\r', '\n']) :: lineBreaks (start + 2) rest
  | '\n' :: rest => (start, ['\n']) :: lineBreaks (start + 1) rest
  | c :: rest => lineBreaks (start + c.utf8Size) rest

theorem length_lineBreaks (start : Nat) (t : Text) :
    (lineBreaks start t).length = t.count '\n' := by
  fun_induction lineBreaks start t with
  | case1 => rfl
  | case2 _ _ ih => simp [ih]
  | case3 _ _ ih => simp [ih]
  | case4 start c rest _ hlf ih =>
    have : c ≠ '\n' := fun eq => hlf eq
    simp [ih, this]

theorem eq_of_mem_lineBreaks {start : Nat} {t : Text} {x : Nat × Text}
    (h : x ∈ lineBreaks start t) : x.2 = ['\n'] ∨ x.2 = ['\r', '\n'] := by
  fun_induction lineBreaks start t with
  | case1 => simp at h
  | case2 start rest ih =>
    rcases List.mem_cons.1 h with rfl | h
    · exact .inr rfl
    · exact ih h
  | case3 start rest ih =>
    rcases List.mem_cons.1 h with rfl | h
    · exact .inl rfl
    · exact ih h
  | case4 _ _ _ _ _ ih => exact ih h

/-- Text without line feeds, not cut off between a carriage return and a line feed, has no
breaks. -/
theorem lineBreaks_append {t : Text} (hlf : '\n' ∉ t) {rest : Text}
    (hcr : t.getLast? = some '\r' → rest.head? ≠ some '\n') (start : Nat) :
    lineBreaks start (t ++ rest) = lineBreaks (start + byteLength t) rest := by
  induction t generalizing start with
  | nil => rfl
  | cons c t ih =>
    have hc : c ≠ '\n' := fun eq => hlf (by simp [eq])
    have ht : '\n' ∉ t := fun mem => hlf (List.mem_cons_of_mem c mem)
    have hcr' : t.getLast? = some '\r' → rest.head? ≠ some '\n' := by
      intro last
      refine hcr ?_
      rw [List.getLast?_cons, last]
      rfl
    rw [List.cons_append, lineBreaks, ih ht hcr', byteLength_cons, Nat.add_assoc]
    · rintro next rfl eq
      cases t with
      | nil => exact hcr rfl (by simpa using congrArg List.head? eq)
      | cons d t => exact ht (by simp [show d = '\n' by simpa using congrArg List.head? eq])
    · exact hc

end TierLint.Text
