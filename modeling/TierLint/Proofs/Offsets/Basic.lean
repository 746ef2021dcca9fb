import Mathlib.Data.List.TakeWhile
import TierLint.Proofs.Text.Bytes
import TierLint.Proofs.Text.Cut
import TierLint.Proofs.Text.Run

/-!
# Reading by byte offsets

Texts can be read by byte offsets instead of recursion: a scanner goes from offset to offset, looks
at single bytes, and cuts the text where it has found something. Each such step can go wrong
(`Fault`): a cut need not lie between two characters, an index need not be in range, a difference
can be negative, and a loop may stand still.

A cut between two parts of a text succeeds (`sliceFrom_append`, `sliceTo_append`, `slice_append`),
and in front of a character one finds its first byte (`byteAt_of_lt`). A loop that looks for ASCII
characters only may go through the bytes of other characters one at a time, and may even enter one
in the middle (`Skips.scan_other`, `Skips.scan_escaped`).
-/

set_option autoImplicit false

namespace TierLint.Offsets

open Text

/-- What can go wrong when a text is read by byte offsets. -/
inductive Fault where
  /-- The marker of a heading would end inside a character. -/
  | marker
  /-- A cut lies inside a character or outside of the text, or ends in front of its beginning. -/
  | cut
  /-- An index is out of range. -/
  | index
  /-- A difference of two offsets or counts is negative. -/
  | underflow
  /-- A loop stands still, or a recursion gets no further. -/
  | stuck
  deriving DecidableEq

/-- The text from byte `n` on. -/
def sliceFrom (t : Text) (n : Nat) : Except Fault Text :=
  match splitAtByte n t with
  | some (_, behind) => .ok behind
  | none => .error .cut

/-- The text up to byte `n`. -/
def sliceTo (t : Text) (n : Nat) : Except Fault Text :=
  match splitAtByte n t with
  | some (front, _) => .ok front
  | none => .error .cut

/-- The text from byte `start` to byte `stop`. -/
def slice (t : Text) (start stop : Nat) : Except Fault Text :=
  match t.slice? start stop with
  | some part => .ok part
  | none => .error .cut

/-- The byte at offset `n`. -/
def byteAt (t : Text) (n : Nat) : Except Fault UInt8 :=
  match t.bytes[n]? with
  | some b => .ok b
  | none => .error .index

/-- The difference of two numbers. -/
def minus (m n : Nat) : Except Fault Nat := if n ≤ m then .ok (m - n) else .error .underflow

/-- The byte of an ASCII character. -/
def code (c : Char) : UInt8 := UInt8.ofNat c.toNat

/-- The offset of the first character that satisfies `p`. -/
def find? (p : Char → Bool) (t : Text) : Option Nat :=
  if t.any p then some (byteLength (t.takeWhile (!p ·))) else none

@[simp] theorem ok_bind {α β : Type} (a : α) (f : α → Except Fault β) :
    (Except.ok a >>= f) = f a := rfl

@[simp] theorem error_bind {α β : Type} (e : Fault) (f : α → Except Fault β) :
    (Except.error e >>= f) = .error e := rfl

/-! ## Cuts -/

variable {t u v w : Text}

@[simp] theorem sliceFrom_append (u v : Text) : sliceFrom (u ++ v) (byteLength u) = .ok v := by
  rw [sliceFrom, splitAtByte_append]

@[simp] theorem sliceTo_append (u v : Text) : sliceTo (u ++ v) (byteLength u) = .ok u := by
  rw [sliceTo, splitAtByte_append]

@[simp] theorem sliceFrom_zero (t : Text) : sliceFrom t 0 = .ok t := sliceFrom_append [] t

theorem sliceFrom_of_eq {n : Nat} (ht : t = u ++ v) (hn : n = byteLength u) :
    sliceFrom t n = .ok v := by
  rw [ht, hn, sliceFrom_append]

theorem sliceTo_of_eq {n : Nat} (ht : t = u ++ v) (hn : n = byteLength u) :
    sliceTo t n = .ok u := by
  rw [ht, hn, sliceTo_append]

theorem slice_of_eq {m n : Nat} (ht : t = u ++ v ++ w) (hm : m = byteLength u)
    (hn : n = byteLength u + byteLength v) : slice t m n = .ok v := by
  rw [slice, ht, hm, hn, slice?_append]

theorem minus_of_eq {m n k : Nat} (h : m = k + n) : minus m n = .ok k := by
  rw [minus, if_pos (by omega), show m - n = k by omega]

theorem find?_eq_none {p : Char → Bool} (h : t.any p = false) : find? p t = none := by
  rw [find?, h]
  rfl

theorem find?_eq_some {p : Char → Bool} (h : t.any p = true) :
    find? p t = some (byteLength (t.takeWhile (!p ·))) := by
  rw [find?, if_pos h]

theorem find?_eq (p : Char → Bool) (t : Text) :
    (find? p t).getD (byteLength t) = byteLength (t.takeWhile (!p ·)) := by
  by_cases any : t.any p = true
  · rw [find?_eq_some any]
    rfl
  · have all : t.takeWhile (!p ·) = t := by
      rw [List.takeWhile_eq_self_iff]
      simpa using any
    rw [find?_eq_none (Bool.eq_false_iff.2 any), all]
    rfl

/-- Where the first part of a cut ends that begins behind `u`. -/
def endOf (u : Text) (cut? : Option (Text × Text)) : Option Nat :=
  cut?.map fun (part, _) => byteLength (u ++ part)

theorem endOf_prependTo (u w : Text) (cut? : Option (Text × Text)) :
    endOf u (prependTo w cut?) = endOf (u ++ w) cut? := by
  rw [endOf, prependTo, Option.map_map, endOf]
  simp only [Function.comp_def, List.append_assoc]

/-! ## Bytes -/

theorem length_bytes (t : Text) : t.bytes.length = byteLength t := by
  induction t with
  | nil => rfl
  | cons c t ih =>
    rw [bytes_cons, List.length_append, ih, String.length_utf8EncodeChar, byteLength_cons]

/-- An offset between two parts of a text leads to the bytes of the second one. -/
theorem drop_bytes (u v : Text) : (u ++ v).bytes.drop (byteLength u) = v.bytes := by
  rw [bytes_append, ← length_bytes, List.drop_left]

/-- In front of an ASCII character, and only there, one finds its byte. -/
theorem byteAt_of_lt {c : Char} (h : c.toNat < 128) (u v : Text) :
    byteAt (u ++ c :: v) (byteLength u) = .ok (code c) := by
  rw [byteAt, bytes_append, ← length_bytes, List.getElem?_append_right (Nat.le_refl _),
    Nat.sub_self, bytes_cons, utf8EncodeChar_of_lt h]
  rfl

/-- Up to the end of a character, one finds its bytes. -/
theorem byteAt_inside {c : Char} {n : Nat} (hm : byteLength u ≤ n)
    (hn : n < byteLength u + c.utf8Size) :
    ∃ b ∈ String.utf8EncodeChar c, byteAt (u ++ c :: v) n = .ok b := by
  have inside : n - byteLength u < (String.utf8EncodeChar c).length := by
    rw [String.length_utf8EncodeChar]
    omega
  refine ⟨(String.utf8EncodeChar c)[n - byteLength u], List.getElem_mem inside, ?_⟩
  rw [byteAt, bytes_append, List.getElem?_append_right (by rwa [length_bytes]), length_bytes,
    bytes_cons, List.getElem?_append_left inside, List.getElem?_eq_getElem inside]

/-- For given characters, that they are ASCII is read off from their list. -/
theorem ascii_of_all {ds : List Char} (h : (ds.all fun d => d.toNat < 128) = true) :
    ∀ d ∈ ds, d.toNat < 128 := by
  intro d hd
  exact of_decide_eq_true (List.all_eq_true.1 h d hd)

theorem ascii_of_le {c d : Char} (hd : d.toNat < 128) (h : c.val ≤ d.val) : c.toNat < 128 :=
  Nat.lt_of_le_of_lt (UInt32.le_iff_toNat_le.1 h) hd

theorem ascii_of_isDigit {c : Char} (h : c.isDigit = true) : c.toNat < 128 := by
  have bounds : ('0'.val ≤ c.val && c.val ≤ '9'.val) = true := h
  rw [Bool.and_eq_true, decide_eq_true_eq, decide_eq_true_eq] at bounds
  exact ascii_of_le (by decide) bounds.2

theorem ascii_of_isAlpha {c : Char} (h : c.isAlpha = true) : c.toNat < 128 := by
  rcases Bool.or_eq_true_iff.1 h with upper | lower
  · have bounds : c.val ≥ 'A'.val ∧ c.val ≤ 'Z'.val := of_decide_eq_true upper
    exact ascii_of_le (by decide) bounds.2
  · have bounds : ('a'.val ≤ c.val && c.val ≤ 'z'.val) = true := lower
    rw [Bool.and_eq_true, decide_eq_true_eq, decide_eq_true_eq] at bounds
    exact ascii_of_le (by decide) bounds.2

theorem code_toNat {c : Char} (h : c.toNat < 128) : (code c).toNat = c.toNat := by
  rw [code, UInt8.toNat_ofNat', Nat.mod_eq_of_lt (by omega)]

theorem code_inj {c d : Char} (hc : c.toNat < 128) (hd : d.toNat < 128) :
    code c = code d ↔ c = d := by
  constructor
  · intro h
    have same := congrArg UInt8.toNat h
    rw [code_toNat hc, code_toNat hd] at same
    exact Char.toNat_inj.1 same
  · rintro rfl
    rfl

/-- A byte of an ASCII character is a byte of no other character. -/
theorem eq_of_code_mem {c d : Char} (hd : d.toNat < 128)
    (h : code d ∈ String.utf8EncodeChar c) : c = d := by
  have same := (utf8EncodeChar_of_mem_lt h (by rw [code_toNat hd]; exact hd)).2
  rw [code_toNat hd] at same
  exact Char.toNat_inj.1 same

theorem eq_code_iff {c d : Char} {b : UInt8} (hd : d.toNat < 128)
    (hb : b ∈ String.utf8EncodeChar c) : b = code d ↔ c = d := by
  constructor
  · rintro rfl
    exact eq_of_code_mem hd hb
  · rintro rfl
    rw [utf8EncodeChar_of_lt hd] at hb
    exact List.mem_singleton.1 hb

/-- Number of bytes `d` from offset `n` on. -/
def runAt (t : Text) (n : Nat) (d : Char) : Except Fault Nat :=
  if n ≤ t.bytes.length then .ok ((t.bytes.drop n).takeWhile (· == code d)).length
  else .error .index

/-- Counting the bytes of an ASCII character at the start of a text counts the characters. -/
theorem length_takeWhile_bytes {p : UInt8 → Bool} {q : Char → Bool}
    (ascii : ∀ c : Char, c.toNat < 128 → p (code c) = q c)
    (other : ∀ b : UInt8, 128 ≤ b.toNat → p b = false) (hq : ∀ c : Char, q c = true → c.toNat < 128)
    (t : Text) : (t.bytes.takeWhile p).length = (t.takeWhile q).length := by
  induction t with
  | nil => rfl
  | cons c t ih =>
    by_cases h : c.toNat < 128
    · rw [bytes_cons, utf8EncodeChar_of_lt h, List.singleton_append, List.takeWhile_cons,
        List.takeWhile_cons, ← code, ascii c h]
      split
      · rw [List.length_cons, List.length_cons, ih]
      · rfl
    · -- neither the character is counted, nor its first byte
      have no : q c = false := Bool.eq_false_iff.2 fun yes => h (hq c yes)
      rw [List.takeWhile_cons_of_neg (by simp [no])]
      cases hb : String.utf8EncodeChar c with
      | nil => exact absurd hb String.utf8EncodeChar_ne_nil
      | cons b bs =>
        have large := le_of_mem_utf8EncodeChar (Nat.not_lt.1 h) (hb ▸ List.mem_cons_self)
        rw [bytes_cons, hb, List.cons_append, List.takeWhile_cons_of_neg (by simp [other b large])]
        rfl

theorem length_takeWhile_code {d : Char} (hd : d.toNat < 128) (t : Text) :
    (t.bytes.takeWhile (· == code d)).length = (t.takeWhile (· == d)).length := by
  refine length_takeWhile_bytes (fun c hc => ?_) (fun b hb => ?_) (fun c hc => ?_) t
  · rw [Bool.eq_iff_iff, beq_iff_eq, beq_iff_eq, code_inj hc hd]
  · refine Bool.eq_false_iff.2 fun same => ?_
    rw [beq_iff_eq] at same
    rw [same, code_toNat hd] at hb
    omega
  · rw [beq_iff_eq] at hc
    rwa [hc]

theorem runAt_append {d : Char} (hd : d.toNat < 128) (u v : Text) :
    runAt (u ++ v) (byteLength u) d = .ok (v.takeWhile (· == d)).length := by
  rw [runAt, if_pos, drop_bytes, length_takeWhile_code hd]
  rw [length_bytes, byteLength_append]
  exact Nat.le_add_right ..

theorem byteLength_add_replicate {c : Char} (h : c.toNat < 128) (u : Text) (n : Nat) :
    byteLength u + n = byteLength (u ++ List.replicate n c) := by
  rw [byteLength_append, byteLength_replicate h]

theorem byteLength_add_one {c : Char} (h : c.toNat < 128) (u : Text) :
    byteLength u + 1 = byteLength (u ++ [c]) := by
  rw [byteLength_append, byteLength_cons, utf8Size_of_lt h]
  rfl

theorem byteLength_lt_of_cons {c : Char} (ht : t = u ++ c :: v) : byteLength u < byteLength t := by
  have := c.utf8Size_pos
  rw [ht, byteLength_append, byteLength_cons]
  omega

/-! ## Loops -/

/-- What a step of a loop leads to. -/
inductive Next (σ α : Type) where
  /-- The loop goes on from another place. -/
  | go (state : σ) (pos : Nat)
  /-- The loop has a result. -/
  | stop (result : α)

variable {σ α : Type} {step : σ → Nat → Except Fault (Next σ α)}
  {finish : σ → Nat → Except Fault α} {len : Nat}

/-- Goes from place to place up to `len`; a step that gets no further is a fault. -/
def scan (step : σ → Nat → Except Fault (Next σ α)) (finish : σ → Nat → Except Fault α) (len : Nat)
    (s : σ) (pos : Nat) : Except Fault α :=
  if _h : pos < len then
    match step s pos with
    | .error f => .error f
    | .ok (.stop a) => .ok a
    | .ok (.go s' pos') =>
      if _h' : pos < pos' then scan step finish len s' pos' else .error .stuck
  else finish s pos
termination_by len - pos

theorem scan_go {s s' : σ} {pos pos' : Nat} (h : pos < len)
    (hs : step s pos = .ok (.go s' pos')) (hp : pos < pos') :
    scan step finish len s pos = scan step finish len s' pos' := by
  rw [scan, dif_pos h, hs]
  simp only [dif_pos hp]

theorem scan_stop {s : σ} {pos : Nat} {a : α} (h : pos < len)
    (hs : step s pos = .ok (.stop a)) : scan step finish len s pos = .ok a := by
  rw [scan, dif_pos h, hs]

theorem scan_error {s : σ} {pos : Nat} {f : Fault} (h : pos < len) (hs : step s pos = .error f) :
    scan step finish len s pos = .error f := by
  rw [scan, dif_pos h, hs]

theorem scan_end {s : σ} {pos : Nat} (h : len ≤ pos) :
    scan step finish len s pos = finish s pos := by
  rw [scan, dif_neg (Nat.not_lt.2 h)]

/-- A loop that passes some text at one step is behind it then. -/
theorem scan_past {w : Text} {n : Nat} {s s' : σ} (ht : t = u ++ w ++ v) (size : byteLength w = n)
    (pos : 0 < n) (hs : step s (byteLength u) = .ok (.go s' (byteLength u + n))) :
    scan step finish (byteLength t) s (byteLength u) =
      scan step finish (byteLength t) s' (byteLength (u ++ w)) := by
  have inside : byteLength u < byteLength t := by
    rw [ht, byteLength_append, byteLength_append]
    omega
  rw [scan_go inside hs (by omega), byteLength_append, size]

/-- Places where a loop does nothing are skipped. -/
theorem scan_skip {s : σ} {pos pos' : Nat} (hp : pos ≤ pos') (hlen : pos' ≤ len)
    (idle : ∀ n, pos ≤ n → n < pos' → step s n = .ok (.go s (n + 1))) :
    scan step finish len s pos = scan step finish len s pos' := by
  obtain ⟨k, rfl⟩ := Nat.exists_eq_add_of_le hp
  clear hp
  induction k generalizing pos with
  | zero => rfl
  | succ k ih =>
    rw [scan_go (by omega) (idle pos (Nat.le_refl _) (by omega)) (Nat.lt_succ_self _),
      ih (by omega) fun n hn hn' => idle n (by omega) (by omega)]
    congr 1
    omega

/-- Behind a backslash at the end the loop is beyond the text. -/
theorem scan_escaped_end {s : σ} (ht : t = u ++ ['\\'])
    (hs : step s (byteLength u) = .ok (.go s (byteLength u + 2))) :
    scan step finish (byteLength t) s (byteLength u) = finish s (byteLength u + 2) := by
  have whole : byteLength t = byteLength u + 1 := by
    rw [ht, byteLength_append]
    rfl
  rw [scan_go (by omega) hs (by omega), scan_end (by omega)]

/-- The loop looks for some ASCII characters and skips any other byte. -/
structure Skips (t : Text) (wanted : List Char) (step : σ → Nat → Except Fault (Next σ α)) :
    Prop where
  ascii : ∀ d ∈ wanted, d.toNat < 128
  skip : ∀ s n b, byteAt t n = .ok b → (∀ d ∈ wanted, b ≠ code d) → step s n = .ok (.go s (n + 1))

namespace Skips

variable {wanted : List Char}

/-- Bytes of a character that is not looked for. -/
theorem step_inside (skips : Skips t wanted step) {c : Char} (ht : t = u ++ c :: v)
    (hc : c ∉ wanted) (s : σ) {n : Nat} (hm : byteLength u ≤ n)
    (hn : n < byteLength u + c.utf8Size) : step s n = .ok (.go s (n + 1)) := by
  obtain ⟨b, hb, at_⟩ := byteAt_inside (v := v) hm hn
  refine skips.skip s n b (ht ▸ at_) fun d hd same => hc ?_
  rw [same] at hb
  rwa [eq_of_code_mem (skips.ascii d hd) hb]

/-- A character that is not looked for is skipped byte by byte, since no byte of it is one of those
that the loop stops at. -/
theorem scan_other (skips : Skips t wanted step) {c : Char} (ht : t = u ++ c :: v) (hc : c ∉ wanted)
    (s : σ) :
    scan step finish (byteLength t) s (byteLength u) =
      scan step finish (byteLength t) s (byteLength (u ++ [c])) := by
  have len : byteLength (u ++ [c]) = byteLength u + c.utf8Size := by simp
  refine scan_skip (by omega) ?_ fun n hm hn => skips.step_inside ht hc s hm (by omega)
  rw [ht]
  simp

/-- Two bytes further than a backslash the loop is behind the next character, or inside of it; then
it goes through the rest of it. -/
theorem scan_escaped (skips : Skips t wanted step) {c : Char} (ht : t = u ++ '\\' :: c :: v) {s : σ}
    (hs : step s (byteLength u) = .ok (.go s (byteLength u + 2))) :
    scan step finish (byteLength t) s (byteLength u) =
      scan step finish (byteLength t) s (byteLength (u ++ ['\\', c])) := by
  have one : Char.utf8Size '\\' = 1 := rfl
  have len : byteLength (u ++ ['\\', c]) = byteLength u + (1 + c.utf8Size) := by simp [one]
  have whole : byteLength t = byteLength u + (1 + (c.utf8Size + byteLength v)) := by
    rw [ht]
    simp [one]
  have pos := c.utf8Size_pos
  rw [scan_go (by omega) hs (by omega)]
  refine scan_skip (by omega) (by omega) fun n hm hn => ?_
  have behind : t = (u ++ ['\\']) ++ c :: v := by
    rw [ht, List.append_assoc]
    rfl
  have front : byteLength (u ++ ['\\']) = byteLength u + 1 := by simp [one]
  refine skips.step_inside behind (fun mem => ?_) s (by omega) (by omega)
  -- an ASCII character is one byte long, and so nothing of it is left
  have := utf8Size_of_lt (skips.ascii c mem)
  omega

end Skips

end TierLint.Offsets
