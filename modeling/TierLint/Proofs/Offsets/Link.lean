import TierLint.Inline.Link
import TierLint.Proofs.Offsets.CodeSpan

/-!
# Links and images by byte offsets

The scanner counts the brackets of the label and the parentheses of the destination from byte to
byte. The counts never get negative, no cut fails, and the links and images are those that the
readers find (`link_eq`, `image_eq`).
-/

set_option autoImplicit false

namespace TierLint.Offsets

open Text

variable {t u v w : Text}

/-- Looks for the bracket that closes the label of a link; `depth` counts the open brackets. -/
def closingBracketStep (t : Text) (depth pos : Nat) : Except Fault (Next Nat (Option Nat)) := do
  let b ← byteAt t pos
  if b = code '\\' then
    .ok (.go depth (pos + 2))
  else if b = code '`' then
    match ← codeSpan (← sliceFrom t pos) with
    | some (length, _, _) => .ok (.go depth (pos + length))
    | none => .ok (.go depth (pos + 1))
  else if b = code '[' then
    .ok (.go (depth + 1) (pos + 1))
  else if b = code ']' then
    match minus depth 1 with
    | .error _ => .ok (.stop none)
    | .ok outer => if outer = 0 then .ok (.stop (some pos)) else .ok (.go outer (pos + 1))
  else .ok (.go depth (pos + 1))

/-- The offset of the bracket that closes the one at the start of the text. -/
def closingBracket (t : Text) : Except Fault (Option Nat) :=
  scan (closingBracketStep t) (fun _ _ => .ok none) (byteLength t) 0 0

/-- Looks for the parenthesis that closes a destination; `depth` counts the open ones. -/
def destinationStep (t : Text) (depth pos : Nat) : Except Fault (Next Nat (Option Nat)) := do
  let b ← byteAt t pos
  if b = code '\\' then
    .ok (.go depth (pos + 2))
  else if b = code '(' then
    .ok (.go (depth + 1) (pos + 1))
  else if b = code ')' then
    let outer ← minus depth 1
    if outer = 0 then .ok (.stop (some (pos + 1))) else .ok (.go outer (pos + 1))
  else .ok (.go depth (pos + 1))

/-- The length of the destination in parentheses at the start of the text. -/
def destinationLength (t : Text) : Except Fault (Option Nat) :=
  if startsBy (· == '(') t then
    scan (destinationStep t) (fun _ _ => .ok none) (byteLength t) 0 0
  else .ok none

/-- The link at the start of the text: its length, its label, and what follows the label. -/
def link (t : Text) : Except Fault (Option (Nat × Text × Text)) :=
  if startsBy (· == '[') t then do
    match ← closingBracket t with
    | none => .ok none
    | some close =>
      match ← destinationLength (← sliceFrom t (close + 1)) with
      | none => .ok none
      | some length =>
        let stop := close + 1 + length
        .ok (some (stop, ← slice t 1 close, ← slice t close stop))
  else .ok none

/-- The image at the start of the text, likewise. -/
def image : Text → Except Fault (Option (Nat × Text × Text))
  | '!' :: rest => do
    match ← link rest with
    | some (length, label, tail) => .ok (some (length + 1, label, tail))
    | none => .ok none
  | _ => .ok none

theorem skips_closingBracketStep (t : Text) :
    Skips t ['\\', '`', '[', ']'] (closingBracketStep t) where
  ascii := ascii_of_all rfl
  skip depth n b at_ other := by
    rw [closingBracketStep, at_, ok_bind, if_neg (other '\\' (by simp)),
      if_neg (other '`' (by simp)), if_neg (other '[' (by simp)), if_neg (other ']' (by simp))]

theorem closingBracketStep_escape (depth : Nat) (ht : t = u ++ '\\' :: v) :
    closingBracketStep t depth (byteLength u) = .ok (.go depth (byteLength u + 2)) := by
  rw [closingBracketStep, ht, byteAt_of_lt (by decide), ok_bind, if_pos rfl]

theorem closingBracketStep_tick (depth : Nat) (ht : t = u ++ '`' :: v) :
    closingBracketStep t depth (byteLength u) =
      .ok (.go depth (byteLength u + match CodeSpan.read? ('`' :: v) with
        | some (s, _) => byteLength s.source
        | none => 1)) := by
  rw [closingBracketStep, ht, byteAt_of_lt (by decide), ok_bind, if_neg (by decide), if_pos rfl,
    sliceFrom_append, ok_bind, codeSpan_eq, ok_bind]
  cases CodeSpan.read? ('`' :: v) <;> rfl

theorem closingBracketStep_open (depth : Nat) (ht : t = u ++ '[' :: v) :
    closingBracketStep t depth (byteLength u) = .ok (.go (depth + 1) (byteLength u + 1)) := by
  rw [closingBracketStep, ht, byteAt_of_lt (by decide), ok_bind, if_neg (by decide),
    if_neg (by decide), if_pos rfl]

theorem closingBracketStep_close (outer : Nat) (ht : t = u ++ ']' :: v) :
    closingBracketStep t (outer + 1) (byteLength u) =
      if outer = 0 then .ok (.stop (some (byteLength u)))
      else .ok (.go outer (byteLength u + 1)) := by
  rw [closingBracketStep, ht, byteAt_of_lt (by decide), ok_bind, if_neg (by decide),
    if_neg (by decide), if_neg (by decide), if_pos rfl, minus_of_eq rfl]

/-- The search for the closing bracket finds what the reader finds. It starts at the bracket that
opens the label, so it has one more bracket open than the reader. -/
theorem scan_closingBracket {depth : Nat} (ht : t = u ++ v) :
    scan (closingBracketStep t) (fun _ _ => .ok none) (byteLength t) (depth + 1) (byteLength u) =
      .ok (endOf u (Link.label? depth v)) := by
  have skips := skips_closingBracketStep t
  fun_induction Link.label? depth v generalizing u with
  | case1 =>
    -- the text ends
    rw [scan_end (Nat.le_of_eq (by rw [ht, List.append_nil]))]
    rfl
  | case2 =>
    -- the text ends in a backslash, behind which the scan leaves the text
    rw [scan_escaped_end ht (closingBracketStep_escape _ ht)]
    rfl
  | case3 depth c rest ih =>
    -- a character behind a backslash: the scan may land inside it and walks to its end
    rw [skips.scan_escaped ht (closingBracketStep_escape _ ht), endOf_prependTo]
    exact ih (by rw [ht, List.append_assoc]; rfl)
  | case4 depth rest ih =>
    -- one more open bracket
    have split : t = u ++ ['['] ++ rest := by
      rw [ht, List.append_assoc]
      rfl
    rw [scan_past split rfl Nat.one_pos (closingBracketStep_open _ ht), endOf_prependTo]
    exact ih split
  | case5 rest =>
    -- the bracket that closes the label
    rw [scan_stop (byteLength_lt_of_cons ht) (closingBracketStep_close 0 ht), endOf,
      Option.map_some]
    simp only [List.append_nil]
  | case6 rest outer ih =>
    -- a bracket that closes one inside the label
    have split : t = u ++ [']'] ++ rest := by
      rw [ht, List.append_assoc]
      rfl
    rw [scan_past split rfl Nat.one_pos (closingBracketStep_close (outer + 1) ht), endOf_prependTo]
    exact ih split
  | case7 depth rest span after found ih =>
    -- a code span, whose brackets do not count
    have split : t = u ++ span.source ++ after := by
      rw [ht, CodeSpan.eq_of_read? found, List.append_assoc]
    have step := closingBracketStep_tick (depth + 1) ht
    rw [found] at step
    rw [scan_past split rfl (byteLength_source_pos found) step, endOf_prependTo]
    exact ih split
  | case8 depth rest found ih =>
    -- a backtick that opens no code span
    have split : t = u ++ ['`'] ++ rest := by
      rw [ht, List.append_assoc]
      rfl
    have step := closingBracketStep_tick (depth + 1) ht
    rw [found] at step
    rw [scan_past split rfl Nat.one_pos step, endOf_prependTo]
    exact ih split
  | case9 depth c rest noEnd noEsc noOpen noClose noTick ih =>
    -- any other character, which the scan walks through byte by byte
    rw [skips.scan_other ht ?_ _, endOf_prependTo]
    · exact ih (by rw [ht, List.append_assoc]; rfl)
    · simp only [List.mem_cons, List.not_mem_nil, or_false]
      rintro (rfl | rfl | rfl | rfl)
      · exact ne_backslash_of_cons noEnd noEsc rfl
      · exact noTick rfl
      · exact noOpen rfl
      · exact noClose rfl

theorem skips_destinationStep (t : Text) : Skips t ['\\', '(', ')'] (destinationStep t) where
  ascii := ascii_of_all rfl
  skip depth n b at_ other := by
    rw [destinationStep, at_, ok_bind, if_neg (other '\\' (by simp)), if_neg (other '(' (by simp)),
      if_neg (other ')' (by simp))]

theorem destinationStep_escape (depth : Nat) (ht : t = u ++ '\\' :: v) :
    destinationStep t depth (byteLength u) = .ok (.go depth (byteLength u + 2)) := by
  rw [destinationStep, ht, byteAt_of_lt (by decide), ok_bind, if_pos rfl]

theorem destinationStep_open (depth : Nat) (ht : t = u ++ '(' :: v) :
    destinationStep t depth (byteLength u) = .ok (.go (depth + 1) (byteLength u + 1)) := by
  rw [destinationStep, ht, byteAt_of_lt (by decide), ok_bind, if_neg (by decide), if_pos rfl]

theorem destinationStep_close (outer : Nat) (ht : t = u ++ ')' :: v) :
    destinationStep t (outer + 1) (byteLength u) =
      if outer = 0 then .ok (.stop (some (byteLength u + 1)))
      else .ok (.go outer (byteLength u + 1)) := by
  rw [destinationStep, ht, byteAt_of_lt (by decide), ok_bind, if_neg (by decide),
    if_neg (by decide), if_pos rfl, minus_of_eq rfl, ok_bind]

/-- The search for the closing parenthesis finds what the reader finds. -/
theorem scan_destination {depth : Nat} (ht : t = u ++ v) :
    scan (destinationStep t) (fun _ _ => .ok none) (byteLength t) (depth + 1) (byteLength u) =
      .ok ((endOf u (Link.destination? depth v)).map (· + 1)) := by
  have skips := skips_destinationStep t
  fun_induction Link.destination? depth v generalizing u with
  | case1 =>
    -- the text ends
    rw [scan_end (Nat.le_of_eq (by rw [ht, List.append_nil]))]
    rfl
  | case2 =>
    -- the text ends in a backslash
    rw [scan_escaped_end ht (destinationStep_escape _ ht)]
    rfl
  | case3 depth c rest ih =>
    -- a character behind a backslash
    rw [skips.scan_escaped ht (destinationStep_escape _ ht), endOf_prependTo]
    exact ih (by rw [ht, List.append_assoc]; rfl)
  | case4 depth rest ih =>
    -- one more open parenthesis
    have split : t = u ++ ['('] ++ rest := by
      rw [ht, List.append_assoc]
      rfl
    rw [scan_past split rfl Nat.one_pos (destinationStep_open _ ht), endOf_prependTo]
    exact ih split
  | case5 rest =>
    -- the parenthesis that closes the destination, which the length takes in
    rw [scan_stop (byteLength_lt_of_cons ht) (destinationStep_close 0 ht), endOf, Option.map_some]
    simp only [List.append_nil, Option.map_some]
  | case6 rest outer ih =>
    -- a parenthesis that closes one inside the destination
    have split : t = u ++ [')'] ++ rest := by
      rw [ht, List.append_assoc]
      rfl
    rw [scan_past split rfl Nat.one_pos (destinationStep_close (outer + 1) ht), endOf_prependTo]
    exact ih split
  | case7 depth c rest noEnd noEsc noOpen noClose ih =>
    -- any other character
    rw [skips.scan_other ht ?_ _, endOf_prependTo]
    · exact ih (by rw [ht, List.append_assoc]; rfl)
    · simp only [List.mem_cons, List.not_mem_nil, or_false]
      rintro (rfl | rfl | rfl)
      · exact ne_backslash_of_cons noEnd noEsc rfl
      · exact noOpen rfl
      · exact noClose rfl

theorem closingBracket_cons (v : Text) :
    closingBracket ('[' :: v) = .ok (endOf ['['] (Link.label? 0 v)) := by
  have step : closingBracketStep ('[' :: v) 0 0 = .ok (.go 1 1) :=
    closingBracketStep_open (u := []) 0 rfl
  have inside : 0 < byteLength ('[' :: v) := byteLength_lt_of_cons (u := []) rfl
  rw [closingBracket, scan_go inside step Nat.one_pos]
  exact scan_closingBracket (u := ['[']) rfl

theorem destinationLength_of_ne (h : startsBy (· == '(') t = false) :
    destinationLength t = .ok none := by
  rw [destinationLength, h]
  rfl

theorem destinationLength_cons (v : Text) :
    destinationLength ('(' :: v) = .ok ((endOf ['('] (Link.destination? 0 v)).map (· + 1)) := by
  have step : destinationStep ('(' :: v) 0 0 = .ok (.go 1 1) :=
    destinationStep_open (u := []) 0 rfl
  have inside : 0 < byteLength ('(' :: v) := byteLength_lt_of_cons (u := []) rfl
  have opens : startsBy (· == '(') ('(' :: v) = true := rfl
  rw [destinationLength, if_pos opens, scan_go inside step Nat.one_pos]
  exact scan_destination (u := ['(']) rfl

theorem link_of_ne (h : startsBy (· == '[') t = false) : link t = .ok none := by
  rw [link, h]
  rfl

/-- The length of a link, put together from its parts. -/
theorem byteLength_source (l : Link) :
    byteLength ('[' :: l.label) + 1 + (byteLength ('(' :: l.destination) + 1) =
      byteLength l.source := by
  have ascii : ∀ c ∈ ['[', ']', '(', ')'], Char.utf8Size c = 1 :=
    fun c hc => utf8Size_of_lt (ascii_of_all rfl c hc)
  simp [Link.source, Link.tail, ascii]
  omega

theorem slice_label (l : Link) (after : Text) :
    slice (l.source ++ after) 1 (byteLength ('[' :: l.label)) = .ok l.label :=
  slice_of_eq (u := ['[']) (w := l.tail ++ after) (by simp [Link.source]) rfl rfl

theorem slice_tail (l : Link) (after : Text) :
    slice (l.source ++ after) (byteLength ('[' :: l.label)) (byteLength l.source) = .ok l.tail :=
  slice_of_eq (u := '[' :: l.label) (w := after) rfl rfl (by rw [← byteLength_append]; rfl)

/-- The scanner for links finds what the reader finds. -/
theorem link_eq (t : Text) :
    link t = .ok ((Link.read? t).map fun (l, _) => (byteLength l.source, l.label, l.tail)) := by
  by_cases opens : startsBy (· == '[') t = true
  · obtain ⟨v, rfl⟩ := eq_cons_of_startsBy opens
    rw [link, if_pos opens, closingBracket_cons, ok_bind, Link.read?]
    cases found : Link.label? 0 v with
    | none => rfl
    | some cut =>
      rcases cut with ⟨label, behind⟩
      have whole : '[' :: v = ('[' :: label) ++ [']'] ++ behind := by
        rw [Link.eq_of_label? found]
        simp
      have close : byteLength ('[' :: label) + 1 = byteLength (('[' :: label) ++ [']']) :=
        byteLength_add_one (by decide) _
      simp only [endOf, Option.map_some, List.singleton_append]
      rw [sliceFrom_of_eq whole close, ok_bind]
      by_cases opens : startsBy (· == '(') behind = true
      · obtain ⟨rest, rfl⟩ := eq_cons_of_startsBy opens
        rw [destinationLength_cons, ok_bind]
        cases ends : Link.destination? 0 rest with
        | none => simp [ends, endOf]
        | some cut =>
          rcases cut with ⟨destination, after⟩
          -- The parts of the link stay folded while the three cuts are found.
          obtain ⟨l, hl⟩ : ∃ l : Link, l = ⟨label, destination⟩ := ⟨_, rfl⟩
          have split : '[' :: v = l.source ++ after := by
            rw [whole, Link.eq_of_destination? ends, hl, Link.source, Link.tail]
            simp
          have length := byteLength_source l
          have inner := slice_label l after
          have tail := slice_tail l after
          rw [← split] at inner tail
          rw [hl] at length inner tail
          simp only [endOf, Option.map_some, List.singleton_append, length, inner, tail, ok_bind]
          rw [ends]
          rfl
      · rw [destinationLength_of_ne (Bool.eq_false_iff.2 opens), ok_bind]
        simp only
        split
        · rename_i h
          cases h
          exact absurd rfl opens
        · rfl
  · have none : Link.read? t = none := by
      unfold Link.read?
      split
      · exact absurd rfl opens
      · rfl
    rw [link_of_ne (Bool.eq_false_iff.2 opens), none]
    rfl

/-- The scanner for images finds what the reader finds. -/
theorem image_eq (t : Text) :
    image t = .ok ((Link.readImage? t).map fun (l, _) =>
      (byteLength l.source + 1, l.label, l.tail)) := by
  cases t with
  | nil => rfl
  | cons c rest =>
    by_cases hc : c = '!'
    · subst hc
      simp only [image, Link.readImage?]
      rw [link_eq, ok_bind]
      cases Link.read? rest <;> rfl
    · simp [image, Link.readImage?, hc]

end TierLint.Offsets
