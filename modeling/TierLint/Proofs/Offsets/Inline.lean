import TierLint.Inline.Elements
import TierLint.Proofs.Inline.Readers
import TierLint.Proofs.Inline.Spelling
import TierLint.Proofs.Offsets.Autolink
import TierLint.Proofs.Offsets.Emphasis
import TierLint.Proofs.Offsets.Link

/-!
# Running text by byte offsets

A loop goes through the text and tries the scanner that the byte at its place calls for. What it has
found it writes behind the literal text that it has passed since the last construct, and it calls
itself for the running text inside links and emphasis.

The loop keeps to places between characters. So no cut fails, and it writes the elements that the
reader of running text returns (`inline_eq`).
-/

set_option autoImplicit false

namespace TierLint.Offsets

open Text

/-- The emphasis at offset `pos`, if there is one: its length and its element. -/
def emphasisAt (inside : Text → Except Fault (List Element)) (t : Text) (pos : Nat) (d : Char) :
    Except Fault (Option (Nat × Element)) := do
  match ← emphasis t pos d with
  | none => .ok none
  | some (length, level, close) =>
    let kind := if level = 2 then Kind.strong else .emphasis
    let mark := if level = 2 then Kind.strongMarker else .emphasisMarker
    let opening ← slice t pos (pos + level)
    let content ← slice t (pos + level) (pos + close)
    let closing ← slice t (pos + close) (pos + length)
    .ok (some (length,
      .node kind (.token mark opening :: (← inside content) ++ [.token mark closing])))

/-- The construct at offset `pos`, where the text goes on with `rest` and the byte `b`: its length
and its element. -/
def construct (inside : Text → Except Fault (List Element)) (t rest : Text) (pos : Nat)
    (b : UInt8) : Except Fault (Option (Nat × Element)) := do
  if b = code '\\' then
    match escape rest with
    | some length => .ok (some (length, .token .escapedChar (← sliceTo rest length)))
    | none => .ok none
  else if b = code '`' then
    match ← codeSpan rest with
    | some (length, content, ticks) =>
      .ok (some (length, Markup.element [] (.codeSpan ⟨ticks, content⟩)))
    | none => .ok none
  else if b = code '<' then
    match ← autolink rest with
    | some length => .ok (some (length, .token .autolink (← sliceTo rest length)))
    | none => .ok none
  else if b = code '!' then
    match ← image rest with
    | some (length, label, tail) =>
      .ok (some (length, .node .image (.token .imageStart ['!', '['] ::
        Element.tokenUnlessEmpty .imageText label ++ [.token .linkDestination tail])))
    | none => .ok none
  else if b = code '[' then
    match ← link rest with
    | some (length, label, tail) =>
      .ok (some (length, .node .link [.token .linkStart ['['], .node .linkText (← inside label),
        .token .linkDestination tail]))
    | none => .ok none
  else if b = code '*' then emphasisAt inside t pos '*'
  else if b = code '_' then emphasisAt inside t pos '_'
  else .ok none

/-- How far literal text goes that begins with the byte `b`: over a whole run of backticks or
emphasis delimiters, and over one character otherwise. -/
def literalLength (rest : Text) (b : UInt8) : Nat :=
  if b = code '`' || b = code '*' || b = code '_' then (rest.bytes.takeWhile (· == b)).length
  else match rest.head? with
    | some c => c.utf8Size
    | none => 1

/-- One round of the loop. Its state is where the literal text begins that is not written yet, and
what has been written. -/
def inlineStep (inside : Text → Except Fault (List Element)) (t : Text) (s : Nat × List Element)
    (pos : Nat) : Except Fault (Next (Nat × List Element) (List Element)) := do
  let rest ← sliceFrom t pos
  let b ← byteAt t pos
  match ← construct inside t rest pos b with
  | some (length, e) =>
    let literal ← slice t s.1 pos
    .ok (.go (pos + length, s.2 ++ Element.tokenUnlessEmpty .text literal ++ [e]) (pos + length))
  | none => .ok (.go s (pos + literalLength rest b))

/-- The literal text at the end. -/
def inlineFinish (t : Text) (s : Nat × List Element) (_ : Nat) : Except Fault (List Element) := do
  let literal ← sliceFrom t s.1
  .ok (s.2 ++ Element.tokenUnlessEmpty .text literal)

/-- The elements of running text, down to a depth. -/
def inlineWithin : Nat → Text → Except Fault (List Element)
  | 0, _ => .error .stuck
  | depth + 1, t =>
    scan (inlineStep (inlineWithin depth) t) (inlineFinish t) (byteLength t) (0, []) 0

/-- The elements of running text; what is inside a construct is shorter than the text. -/
def inline (t : Text) : Except Fault (List Element) := inlineWithin (t.length + 1) t

variable {t u v : Text} {before : Option Char} {inside : Text → Except Fault (List Element)}

/-! ## The scanners at a place -/

section

/-- What a scanner has to find where the reader finds `m`. -/
def expected (found : Option (Markup × Text)) : Option (Nat × Element) :=
  found.map fun (m, _) => (byteLength m.source, m.element (Inline.elements m.inner))

theorem construct_escape (v : Text) (pos : Nat) :
    construct inside t ('\\' :: v) pos (code '\\') =
      .ok (expected (Markup.read? before ('\\' :: v))) := by
  rw [construct, if_pos rfl, escape_eq, Markup.read?_eq, CodeSpan.read?_of_ne (by decide),
    Autolink.read?_of_ne (by decide), Link.readImage?_of_ne (by decide),
    Link.read?_of_ne (by decide), Emphasis.read?_of_ne (by decide) (by decide)]
  cases found : Escape.read? ('\\' :: v) with
  | none => rfl
  | some result =>
    rcases result with ⟨c, rest⟩
    have split : '\\' :: v = ['\\', c] ++ rest := Escape.eq_of_read? found
    simp only [Option.map_some]
    rw [sliceTo_of_eq split rfl]
    rfl

theorem construct_codeSpan (v : Text) (pos : Nat) :
    construct inside t ('`' :: v) pos (code '`') =
      .ok (expected (Markup.read? before ('`' :: v))) := by
  rw [construct, if_neg (by decide), if_pos rfl, codeSpan_eq, ok_bind, Markup.read?_eq,
    Escape.read?_of_ne (by decide), Autolink.read?_of_ne (by decide),
    Link.readImage?_of_ne (by decide), Link.read?_of_ne (by decide),
    Emphasis.read?_of_ne (by decide) (by decide)]
  cases CodeSpan.read? ('`' :: v) <;> rfl

theorem construct_autolink (v : Text) (pos : Nat) :
    construct inside t ('<' :: v) pos (code '<') =
      .ok (expected (Markup.read? before ('<' :: v))) := by
  rw [construct, if_neg (by decide), if_neg (by decide), if_pos rfl, autolink_eq, ok_bind,
    Markup.read?_eq, Escape.read?_of_ne (by decide), CodeSpan.read?_of_ne (by decide),
    Link.readImage?_of_ne (by decide), Link.read?_of_ne (by decide),
    Emphasis.read?_of_ne (by decide) (by decide)]
  cases found : Autolink.read? ('<' :: v) with
  | none => rfl
  | some result =>
    simp only [Option.map_some]
    rw [sliceTo_of_eq (Autolink.eq_of_read? found) rfl]
    rfl

theorem construct_image (v : Text) (pos : Nat) :
    construct inside t ('!' :: v) pos (code '!') =
      .ok (expected (Markup.read? before ('!' :: v))) := by
  rw [construct, if_neg (by decide), if_neg (by decide), if_neg (by decide), if_pos rfl, image_eq,
    ok_bind, Markup.read?_eq, Escape.read?_of_ne (by decide), CodeSpan.read?_of_ne (by decide),
    Autolink.read?_of_ne (by decide), Link.read?_of_ne (by decide),
    Emphasis.read?_of_ne (by decide) (by decide)]
  cases found : Link.readImage? ('!' :: v) with
  | none => rfl
  | some result =>
    simp only [Option.map_some]
    rw [Nat.add_comm]
    rfl

/-- All texts shorter than `t` are read correctly. -/
def ReadsShorter (inside : Text → Except Fault (List Element)) (t : Text) : Prop :=
  ∀ s : Text, s.length < t.length → inside s = .ok (Inline.elements s)

variable (correct : ReadsShorter inside t)
include correct

theorem construct_link (ht : t = u ++ '[' :: v) (pos : Nat) :
    construct inside t ('[' :: v) pos (code '[') =
      .ok (expected (Markup.read? before ('[' :: v))) := by
  rw [construct, if_neg (by decide), if_neg (by decide), if_neg (by decide), if_neg (by decide),
    if_pos rfl, link_eq, ok_bind, Markup.read?_eq, Escape.read?_of_ne (by decide),
    CodeSpan.read?_of_ne (by decide), Autolink.read?_of_ne (by decide),
    Link.readImage?_of_ne (by decide), Emphasis.read?_of_ne (by decide) (by decide)]
  cases found : Link.read? ('[' :: v) with
  | none => rfl
  | some result =>
    rcases result with ⟨l, rest⟩
    -- The label lies between the brackets of the link, so the call inside is for shorter text.
    have shorter : l.label.length < t.length := by
      have split := congrArg List.length (Link.eq_of_read? found)
      simp only [ht, Link.source, List.length_append, List.length_cons] at split ⊢
      omega
    simp only [Option.map_some]
    rw [correct l.label shorter]
    rfl

theorem emphasisAt_eq {d : Char} (hd : d = '*' ∨ d = '_') (ht : t = u ++ d :: v) :
    emphasisAt inside t (byteLength u) d = .ok (expected (Markup.read? u.getLast? (d :: v))) := by
  rw [emphasisAt, emphasis_eq hd ht, ok_bind, Markup.read?_delimiter hd]
  cases found : Emphasis.read? u.getLast? (d :: v) with
  | none => rfl
  | some result =>
    rcases result with ⟨e, rest⟩
    have split : t = u ++ e.source ++ rest := by
      rw [ht, Emphasis.eq_of_read? found, List.append_assoc]
    have marker : byteLength e.marker = Emphasis.width e.strong := by
      rw [Emphasis.marker, Emphasis.delimiter_of_read? found, byteLength_replicate]
      rcases hd with rfl | rfl <;> decide
    have shorter : e.content.length < t.length := by
      have := Emphasis.length_lt_of_read? found
      rw [ht, List.length_append]
      omega
    -- The three cuts fall where the parts of the emphasis meet.
    have opening : slice t (byteLength u) (byteLength u + Emphasis.width e.strong) = .ok e.marker :=
      slice_of_eq (w := e.content ++ e.marker ++ rest)
        (by simp only [split, Emphasis.source, List.append_assoc]) rfl (by rw [marker])
    have content : slice t (byteLength u + Emphasis.width e.strong)
        (byteLength u + byteLength (e.marker ++ e.content)) = .ok e.content :=
      slice_of_eq (u := u ++ e.marker) (w := e.marker ++ rest)
        (by simp only [split, Emphasis.source, List.append_assoc])
        (by rw [byteLength_append, marker]) (by simp only [byteLength_append]; omega)
    have closing : slice t (byteLength u + byteLength (e.marker ++ e.content))
        (byteLength u + byteLength e.source) = .ok e.marker :=
      slice_of_eq (u := u ++ (e.marker ++ e.content)) (w := rest)
        (by simp only [split, Emphasis.source, List.append_assoc])
        (by simp only [byteLength_append])
        (by simp only [Emphasis.source, byteLength_append]; omega)
    simp only [Option.map_some]
    rw [opening, ok_bind, content, ok_bind, closing, ok_bind, correct e.content shorter, ok_bind]
    rcases e with ⟨d', strong, inner⟩
    cases strong <;> rfl

theorem construct_emphasis {d : Char} (hd : d = '*' ∨ d = '_') (ht : t = u ++ d :: v) :
    construct inside t (d :: v) (byteLength u) (code d) =
      .ok (expected (Markup.read? u.getLast? (d :: v))) := by
  rw [← emphasisAt_eq correct hd ht]
  rcases hd with rfl | rfl
  · rw [construct, if_neg (by decide), if_neg (by decide), if_neg (by decide), if_neg (by decide),
      if_neg (by decide), if_pos rfl]
  · rw [construct, if_neg (by decide), if_neg (by decide), if_neg (by decide), if_neg (by decide),
      if_neg (by decide), if_neg (by decide), if_pos rfl]

omit correct in
theorem construct_of_ne {c : Char} {b : UInt8} (hc : c ∉ ['\\', '`', '<', '!', '[', '*', '_'])
    (hb : b ∈ String.utf8EncodeChar c) (v : Text) (pos : Nat) :
    construct inside t (c :: v) pos b = .ok (expected (Markup.read? before (c :: v))) := by
  -- A byte of `c` that is the code of an ASCII character is that of `c` itself.
  have other : ∀ d ∈ ['\\', '`', '<', '!', '[', '*', '_'], b ≠ code d := by
    rintro d hd rfl
    have ascii : ∀ d ∈ ['\\', '`', '<', '!', '[', '*', '_'], d.toNat < 128 := ascii_of_all rfl
    exact hc (eq_of_code_mem (ascii d hd) hb ▸ hd)
  rw [Markup.read?_of_ne hc, construct, if_neg (other _ (by decide)), if_neg (other _ (by decide)),
    if_neg (other _ (by decide)), if_neg (other _ (by decide)), if_neg (other _ (by decide)),
    if_neg (other _ (by decide)), if_neg (other _ (by decide))]
  rfl

/-- At any place the scanners find what the reader finds. -/
theorem construct_eq {c : Char} {b : UInt8} (ht : t = u ++ c :: v)
    (hb : b ∈ String.utf8EncodeChar c) :
    construct inside t (c :: v) (byteLength u) b =
      .ok (expected (Markup.read? u.getLast? (c :: v))) := by
  by_cases hc : c ∈ ['\\', '`', '<', '!', '[', '*', '_']
  · have ascii : ∀ d ∈ ['\\', '`', '<', '!', '[', '*', '_'], d.toNat < 128 := ascii_of_all rfl
    rw [utf8EncodeChar_of_lt (ascii c hc), List.mem_singleton] at hb
    rw [hb]
    simp only [List.mem_cons, List.not_mem_nil, or_false] at hc
    rcases hc with rfl | rfl | rfl | rfl | rfl | rfl | rfl
    · exact construct_escape ..
    · exact construct_codeSpan ..
    · exact construct_autolink ..
    · exact construct_image ..
    · exact construct_link correct ht _
    · exact construct_emphasis correct (.inl rfl) ht
    · exact construct_emphasis correct (.inr rfl) ht
  · exact construct_of_ne hc hb v _

end

/-! ## The loop -/

/-- Literal text in front of elements, or nothing. -/
def prependLiteral (p : Text) (es : List Element) : List Element :=
  if p.isEmpty then es else Inline.consText p es

theorem consText_of_ne {es : List Element} (h : ∀ u es', es ≠ .token .text u :: es') (p : Text) :
    Inline.consText p es = .token .text p :: es := by
  unfold Inline.consText
  split
  · exact absurd rfl (h _ _)
  · rfl

theorem consText_consText (p q : Text) (es : List Element) :
    Inline.consText p (Inline.consText q es) = Inline.consText (p ++ q) es := by
  by_cases h : ∃ u es', es = .token .text u :: es'
  · obtain ⟨u, es', rfl⟩ := h
    simp [Inline.consText]
  · have other : ∀ u es', es ≠ .token .text u :: es' := fun u es' eq => h ⟨u, es', eq⟩
    rw [consText_of_ne other, consText_of_ne other]
    rfl

theorem prependLiteral_consText {q : Text} (hq : q ≠ []) (p : Text) (es : List Element) :
    prependLiteral p (Inline.consText q es) = prependLiteral (p ++ q) es := by
  have joined : (p ++ q).isEmpty = false := by simp [hq]
  rw [prependLiteral, prependLiteral, joined, consText_consText]
  cases p with
  | nil => rfl
  | cons c p => rfl

theorem prependLiteral_nil (p : Text) :
    prependLiteral p [] = Element.tokenUnlessEmpty .text p := by
  cases p <;> rfl

theorem prependLiteral_element (p : Text) (inside : List Element) (m : Markup) (es : List Element) :
    prependLiteral p (m.element inside :: es) =
      Element.tokenUnlessEmpty .text p ++ m.element inside :: es := by
  cases p with
  | nil => rfl
  | cons c p => cases m <;> rfl

/-- A piece of literal text is a run of its first character. -/
theorem literalLength_cons {c : Char} {b : UInt8} (hb : b ∈ String.utf8EncodeChar c) (v : Text) :
    literalLength (c :: v) b =
      byteLength (List.replicate (1 + Inline.literalRepeats c v) c) := by
  have same : (b = code '`' || b = code '*' || b = code '_') =
      (c == '`' || c == '*' || c == '_') := by
    rw [Bool.eq_iff_iff]
    simp only [Bool.or_eq_true, decide_eq_true_eq, beq_iff_eq]
    rw [eq_code_iff (by decide) hb, eq_code_iff (by decide) hb, eq_code_iff (by decide) hb]
  rw [literalLength, same, Inline.literalRepeats]
  split
  · rename_i hc
    have ascii : c.toNat < 128 := by
      simp only [Bool.or_eq_true, beq_iff_eq] at hc
      rcases hc with (rfl | rfl) | rfl <;> decide
    rw [(eq_code_iff ascii hb).2 rfl, length_takeWhile_code ascii, length_takeWhile_cons_self,
      byteLength_replicate ascii]
  · simp

/-- Where a construct begins, a round writes it behind the literal text and goes on at its end. -/
theorem inlineStep_construct (correct : ReadsShorter inside t)
    {c : Char} {p : Text} {m : Markup} {after : Text} (ht : t = u ++ p ++ c :: v)
    (found : Markup.read? (u ++ p).getLast? (c :: v) = some (m, after)) (es : List Element) :
    inlineStep inside t (byteLength u, es) (byteLength (u ++ p)) =
      .ok (.go (byteLength (u ++ p ++ m.source),
          es ++ Element.tokenUnlessEmpty .text p ++ [m.element (Inline.elements m.inner)])
        (byteLength (u ++ p ++ m.source))) := by
  obtain ⟨b, hb, at_⟩ := byteAt_inside (c := c) (v := v) (Nat.le_refl (byteLength (u ++ p)))
    (by have := c.utf8Size_pos; omega)
  have cut : slice t (byteLength u) (byteLength (u ++ p)) = .ok p :=
    slice_of_eq ht rfl (byteLength_append u p)
  rw [inlineStep, sliceFrom_of_eq ht rfl, ok_bind, ht, at_, ok_bind, ← ht,
    construct_eq correct ht hb, found, expected, ok_bind]
  simp only [Option.map_some]
  rw [cut, ok_bind, byteLength_append (u ++ p) m.source]

/-- Where none begins, a round goes on behind the piece of literal text and writes nothing. -/
theorem inlineStep_literal (correct : ReadsShorter inside t)
    {c : Char} (ht : t = u ++ c :: v) (found : Markup.read? u.getLast? (c :: v) = none)
    (s : Nat × List Element) :
    inlineStep inside t s (byteLength u) =
      .ok (.go s (byteLength (u ++ List.replicate (1 + Inline.literalRepeats c v) c))) := by
  obtain ⟨b, hb, at_⟩ := byteAt_inside (c := c) (v := v) (Nat.le_refl (byteLength u))
    (by have := c.utf8Size_pos; omega)
  rw [inlineStep, sliceFrom_of_eq ht rfl, ok_bind, ht, at_, ok_bind, ← ht,
    construct_eq correct ht hb, found, expected, ok_bind, byteLength_append]
  simp only [Option.map_none]
  rw [literalLength_cons hb]

/-- The loop behind `u`, from where on literal text `p` is not yet written, goes on with the
elements of the text behind it. -/
theorem scan_inline (correct : ReadsShorter inside t)
    {p : Text} (ht : t = u ++ p ++ v) (es : List Element) (hb : before = (u ++ p).getLast?) :
    scan (inlineStep inside t) (inlineFinish t) (byteLength t) (byteLength u, es)
        (byteLength (u ++ p)) =
      .ok (es ++ prependLiteral p (Inline.elementsBehind before v)) := by
  fun_induction Inline.elementsBehind before v generalizing u p es with
  | case1 =>
    -- the text ends, and the literal text is written
    rw [scan_end (Nat.le_of_eq (by rw [ht, List.append_nil])), inlineFinish,
      sliceFrom_of_eq (by rw [ht, List.append_nil]) rfl, ok_bind, prependLiteral_nil]
  | case2 before c rest m after found inner behind =>
    -- a construct: behind it no literal text is waiting
    subst hb
    have final := Markup.getLast?_source found
    have size : byteLength (u ++ p) < byteLength (u ++ p ++ m.source) := by
      obtain ⟨front, hm⟩ := List.getLast?_eq_some_iff.1 final
      have pos := m.last.utf8Size_pos
      simp only [hm, byteLength_append, byteLength_cons]
      omega
    have split : t = u ++ p ++ m.source ++ [] ++ after := by
      rw [ht, Markup.eq_of_read? found, List.append_nil, ← List.append_assoc]
    have last : some m.last = (u ++ p ++ m.source ++ []).getLast? := by
      rw [List.append_nil, List.getLast?_append, final]
      rfl
    have later := behind split
      (es ++ Element.tokenUnlessEmpty .text p ++ [m.element (Inline.elements m.inner)]) last
    rw [List.append_nil] at later
    rw [scan_go (byteLength_lt_of_cons ht) (inlineStep_construct correct ht found es) size, later,
      prependLiteral_element]
    simp [prependLiteral, Inline.elements]
  | case3 before c rest found n =>
    -- literal text: the piece joins what is waiting
    rename_i ih
    subst hb
    have size : byteLength (u ++ p) < byteLength (u ++ p ++ List.replicate (1 + n) c) := by
      rw [Nat.add_comm, List.replicate_succ]
      exact byteLength_lt_of_cons rfl
    have split : t = u ++ (p ++ List.replicate (1 + n) c) ++ rest.drop n := by
      rw [ht, Nat.add_comm, List.replicate_succ, Inline.replicate_literalRepeats]
      simp [n]
    have last : some c = (u ++ (p ++ List.replicate (1 + n) c)).getLast? := by
      rw [← List.append_assoc, List.getLast?_append, getLast?_run]
      rfl
    have later := ih split es last
    rw [← List.append_assoc] at later
    rw [scan_go (byteLength_lt_of_cons ht) (inlineStep_literal correct ht found _) size, later,
      prependLiteral_consText]
    rw [Nat.add_comm, List.replicate_succ]
    exact List.cons_ne_nil c _

theorem inlineWithin_eq (depth : Nat) (t : Text) (h : t.length < depth) :
    inlineWithin depth t = .ok (Inline.elements t) := by
  induction depth generalizing t with
  | zero => exact absurd h (Nat.not_lt_zero _)
  | succ depth ih =>
    have correct : ReadsShorter (inlineWithin depth) t := fun s hs => ih s (by omega)
    exact scan_inline (u := []) (p := []) correct rfl [] rfl

/-- Running text has the elements that its reader returns; reading it by byte offsets never
fails. -/
theorem inline_eq (t : Text) : inline t = .ok (Inline.elements t) :=
  inlineWithin_eq _ t (Nat.lt_succ_self _)

end TierLint.Offsets
