import Mathlib.Data.List.Basic
import TierLint.Proofs.Inline.Readers
import TierLint.Proofs.Text.Bytes
import TierLint.Syntax.Visit

/-!
# What follows an escape

Behind an escape the running text goes on as it would begin, with one exception: a delimiter that
would open emphasis opens none behind an escaped delimiter of its kind
(`Inline.elements_escape_iff`). Where the exception does not apply, all that stands behind the escape
is found as it would be alone, two bytes further on.
-/

set_option autoImplicit false

namespace TierLint

open List Text Element

/-! ## Shifted visits -/

/-- The same visit `n` bytes further on. -/
def Visit.shift (n : Nat) (v : Visit) : Visit := ⟨v.ancestors, v.start + n, v.element⟩

namespace Element

mutual

theorem visitsFrom_add (above : List Element) (start n : Nat) : (e : Element) →
    visitsFrom above (start + n) e = (visitsFrom above start e).map (Visit.shift n)
  | .token _ _ => rfl
  | .node k es => by
    rw [visitsFrom, visitsFrom, map_cons, visitsFromAll_add _ start n es]
    rfl

theorem visitsFromAll_add (above : List Element) (start n : Nat) : (es : List Element) →
    visitsFromAll above (start + n) es = (visitsFromAll above start es).map (Visit.shift n)
  | [] => rfl
  | e :: es => by
    rw [visitsFromAll, visitsFromAll, map_append, visitsFrom_add above start n e,
      Nat.add_right_comm, visitsFromAll_add above _ n es]

end

end Element

/-! ## Escaped characters -/

section Punctuation

variable {p : Char} (hp : isAsciiPunctuation p = true)

include hp

theorem toNat_lt_of_isAsciiPunctuation : p.toNat < 128 := by
  simp only [isAsciiPunctuation, Bool.or_eq_true, Bool.and_eq_true, decide_eq_true_eq] at hp
  omega

theorem isAlphanumeric_of_isAsciiPunctuation : Unicode.isAlphanumeric p = false := by
  have all : ∀ n < 128, isAsciiPunctuation (Char.ofNat n) = true →
      Unicode.isAlphanumeric (Char.ofNat n) = false := by decide
  have this := all p.toNat (toNat_lt_of_isAsciiPunctuation hp)
  rw [Char.ofNat_toNat] at this
  exact this hp

/-- Behind an escape, emphasis is read as at the beginning, but not if it begins with the escaped
character. -/
theorem Emphasis.read?_behind_escape (s : Text) :
    read? (some p) s = if startsBy (· == p) s then none else read? none s := by
  cases s with
  | nil => rfl
  | cons d rest =>
    have word := isAlphanumeric_of_isAsciiPunctuation hp
    have other : (some p != some d) = (d != p) := congrArg not BEq.comm
    have first : startsBy (· == p) (d :: rest) = (d == p) := rfl
    rw [first, read?, read?, mayOpen, mayOpen, other, Option.any_some, Option.any_none, word]
    cases same : d == p with
    | true => simp [bne, same]
    | false => simp [bne, same]

end Punctuation

/-- The text begins with emphasis, and with `p` as its delimiter. -/
def Emphasis.OpensBy (p : Char) (s : Text) : Prop :=
  startsBy (· == p) s = true ∧ (read? none s).isSome = true

/-- What stands in front decides about emphasis only. -/
theorem Markup.read?_congr {before before' : Option Char} {t : Text}
    (h : Emphasis.read? before t = Emphasis.read? before' t) :
    read? before t = read? before' t := by
  rw [read?_eq, read?_eq, h]

namespace Inline

variable {before before' : Option Char} {t s : Text} {p : Char}

theorem elementsBehind_congr (h : Markup.read? before t = Markup.read? before' t) :
    elementsBehind before t = elementsBehind before' t := by
  cases found : Markup.read? before t with
  | some cut =>
    rw [elementsBehind_of_read? found, elementsBehind_of_read? (h.symm.trans found)]
  | none =>
    cases t with
    | nil => rw [elementsBehind, elementsBehind]
    | cons c rest =>
      rw [elementsBehind_of_none found, elementsBehind_of_none (h.symm.trans found)]

/-- Literal text is never taken for a node. -/
theorem consText_ne_node (t : Text) (k : Kind) (inside es es' : List Element) :
    consText t es ≠ .node k inside :: es' := by
  unfold consText
  split <;> exact fun h => nomatch (cons.inj h).1

theorem elementsBehind_of_not_opens (hp : isAsciiPunctuation p = true)
    (free : ¬ Emphasis.OpensBy p s) : elementsBehind (some p) s = elements s := by
  refine elementsBehind_congr (Markup.read?_congr ?_)
  rw [Emphasis.read?_behind_escape hp]
  split
  · rename_i begins
    exact (Option.not_isSome_iff_eq_none.1 fun opens => free ⟨begins, opens⟩).symm
  · rfl

/-- The delimiter is literal behind the escape, and opens emphasis alone. -/
theorem elementsBehind_ne_of_opens (hp : isAsciiPunctuation p = true)
    (opens : Emphasis.OpensBy p s) : elementsBehind (some p) s ≠ elements s := by
  obtain ⟨begins, opens⟩ := opens
  obtain ⟨cut, found⟩ := Option.isSome_iff_exists.1 opens
  cases s with
  | nil => cases begins
  | cons d rest =>
    have delimiter := Emphasis.eq_star_or_of_read? found
    have behind : Markup.read? (some p) (d :: rest) = none := by
      rw [Markup.read?_delimiter delimiter, Emphasis.read?_behind_escape hp, if_pos begins]
      rfl
    have alone : Markup.read? none (d :: rest) = some (.emphasis cut.1, cut.2) := by
      rw [Markup.read?_delimiter delimiter, found]
      rfl
    -- literal text behind the escape, a node alone
    rw [elementsBehind_of_none behind, elements, elementsBehind_of_read? alone]
    exact consText_ne_node _ _ _ _ _

/-- **Escapes.** Behind an escape the elements of the running text are those it has alone, exactly
if it does not begin with emphasis whose delimiter is the escaped character. Then they are found
where they would be alone, two bytes further on. -/
theorem elements_escape_iff (hp : isAsciiPunctuation p = true) (s : Text) :
    (elements ('\\' :: p :: s) = .token .escapedChar ['\\', p] :: elements s ↔
      ¬ Emphasis.OpensBy p s) ∧
    (¬ Emphasis.OpensBy p s → ∀ above start,
      visitsFromAll above start (elements ('\\' :: p :: s)) =
        ⟨above, start, .token .escapedChar ['\\', p]⟩ ::
          (visitsFromAll above start (elements s)).map (Visit.shift 2)) := by
  have escape : elements ('\\' :: p :: s) =
      .token .escapedChar ['\\', p] :: elementsBehind (some p) s :=
    elementsBehind_of_read? (Markup.read?_escape hp s)
  have size : Element.byteLength (.token .escapedChar ['\\', p]) = 2 := by
    have one := utf8Size_of_lt (toNat_lt_of_isAsciiPunctuation hp)
    rw [Element.byteLength, byteLength_cons, byteLength_cons, one]
    rfl
  rw [escape, cons_inj_right]
  refine ⟨⟨fun same opens => elementsBehind_ne_of_opens hp opens same,
    elementsBehind_of_not_opens hp⟩, fun free above start => ?_⟩
  rw [elementsBehind_of_not_opens hp free, visitsFromAll, visitsFrom, size, visitsFromAll_add]
  rfl

/-- A delimiter in front of white space opens nothing, escaped or not. -/
theorem elements_escape_iff_blank :
    let s := "* a*".toList
    isAsciiPunctuation '*' = true ∧
      elements ('\\' :: '*' :: s) = .token .escapedChar "\\*".toList :: elements s ∧
      visitsFromAll [] 7 (elements ('\\' :: '*' :: s)) =
        ⟨[], 7, .token .escapedChar "\\*".toList⟩ ::
          (visitsFromAll [] 7 (elements s)).map (Visit.shift 2) := by
  intro s
  have blank : Emphasis.read? none s = none := by decide
  have free : ¬ Emphasis.OpensBy '*' s := by
    rw [Emphasis.OpensBy, blank]
    nofun
  have ⟨elements, visits⟩ := elements_escape_iff (p := '*') (by decide) s
  exact ⟨by decide, elements.2 free, visits free [] 7⟩

/-- Behind an escaped delimiter its like opens no emphasis. -/
theorem escape_hides_emphasis :
    elements "\\**a*".toList = [.token .escapedChar "\\*".toList, .token .text "*a*".toList] ∧
      elements "*a*".toList = [.node .emphasis [.token .emphasisMarker ['*'],
        .token .text ['a'], .token .emphasisMarker ['*']]] := by
  have opens : Markup.read? none "*a*".toList = some (.emphasis ⟨'*', false, ['a']⟩, []) := by
    decide +kernel
  refine ⟨by decide +kernel, ?_⟩
  rw [elements, elementsBehind_of_read? opens]
  decide +kernel

end Inline

end TierLint
