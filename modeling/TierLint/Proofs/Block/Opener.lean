import TierLint.Proofs.Block.Sequence

/-!
# How the first line of a block decides about it

The recognisers are tried in order, but nearly all of them look at one line to accept or refuse it.
What a line opens (`Line.opener`) is found from the line alone, and the block that begins with it is
what its opener makes of the lines behind (`Block.next_eq_opened`). Only a table needs its second
line, and it competes with paragraphs alone: a row is never indented as code.

A line that is nothing else begins a paragraph, so every line begins a block of its own kind and
none is kept as literal text.
-/

set_option autoImplicit false

namespace TierLint

open Text

/-- What a line opens, as the first line of a block. -/
inductive Opener where
  /-- Nothing: the line is blank. -/
  | blank
  /-- Fenced code. -/
  | fence (fence : Fence)
  /-- A heading with a `#` marker. -/
  | heading (level : Nat)
  /-- A thematic break. -/
  | thematicBreak
  /-- A block quote. -/
  | quote
  /-- A list, by its first item. -/
  | item (marker : ListMarker)
  /-- Raw HTML. -/
  | html
  /-- Indented code. -/
  | code
  /-- Running text: a paragraph, an underlined heading or a table. -/
  | text
  deriving DecidableEq

/-- A fence begins with a backtick or a tilde. -/
theorem Fence.exists_cons_of_open? {t : Text} {fence : Fence} (h : open? t = some fence) :
    ∃ c rest, t = c :: rest ∧ (c = '`' ∨ c = '~') := by
  cases t with
  | nil => cases h
  | cons c rest =>
    rw [open?] at h
    split at h
    · rename_i opens
      simp only [Bool.and_eq_true, Bool.or_eq_true, beq_iff_eq] at opens
      exact ⟨c, rest, rfl, opens.1.1⟩
    · cases h

namespace Line

/-- The fence of a line that opens fenced code. -/
def fence? (l : Line) : Option Fence :=
  if l.indent ≤ 3 then Fence.open? (unindented l.content) else none

/-- The line opens raw HTML. -/
def startsHtml (l : Line) : Bool := l.indent ≤ 3 && Html.startsBlock (trimStart l.content)

/-- What the line opens: the first of these that it can open. -/
def opener (l : Line) : Opener :=
  if l.isBlank then .blank
  else match l.fence? with
  | some fence => .fence fence
  | none =>
    match AtxHeading.level? l.content with
    | some level => .heading level
    | none =>
      if ThematicBreak.isBreak l.content then .thematicBreak
      else if Quote.isQuoted l then .quote
      else match ListMarker.read? l.content with
      | some marker => .item marker
      | none =>
        if l.startsHtml then .html
        else if IndentedCode.isCode l then .code
        else .text

variable {l : Line} {m : ListMarker}

theorem isQuoted_of_opener (h : l.opener = .quote) : Quote.isQuoted l = true := by
  unfold opener at h
  repeat' split at h
  all_goals first | assumption | cases h

/-- A line that opens a list carries its marker, and opens nothing that takes precedence. -/
theorem opener_eq_item_iff :
    l.opener = .item m ↔
      l.isBlank = false ∧ l.fence? = none ∧ AtxHeading.level? l.content = none ∧
        ThematicBreak.isBreak l.content = false ∧ Quote.isQuoted l = false ∧
        ListMarker.read? l.content = some m := by
  constructor
  · intro h
    unfold opener at h
    repeat' split at h
    all_goals cases h
    simp_all
  · rintro ⟨blank, fence, level, isBreak, quoted, marker⟩
    simp [opener, blank, fence, level, isBreak, quoted, marker]

theorem marker_of_opener (h : l.opener = .item m) : ListMarker.read? l.content = some m :=
  (opener_eq_item_iff.1 h).2.2.2.2.2

/-- A line that opens nothing else is running text. -/
theorem opener_eq_text_iff :
    l.opener = .text ↔
      l.isBlank = false ∧ l.fence? = none ∧ AtxHeading.level? l.content = none ∧
        ThematicBreak.isBreak l.content = false ∧ Quote.isQuoted l = false ∧
        ListMarker.read? l.content = none ∧ l.startsHtml = false ∧
        IndentedCode.isCode l = false := by
  constructor
  · intro h
    unfold opener at h
    repeat' split at h
    all_goals cases h
    simp_all
  · rintro ⟨blank, fence, level, isBreak, quoted, marker, html, code⟩
    simp [opener, blank, fence, level, isBreak, quoted, marker, html, code]

theorem fence?_of_opener {l : Line} {f : Fence} (h : l.opener = .fence f) : l.fence? = some f := by
  unfold opener at h
  repeat' split at h
  all_goals cases h
  assumption

theorem level?_of_opener {l : Line} {n : Nat} (h : l.opener = .heading n) :
    AtxHeading.level? l.content = some n := by
  unfold opener at h
  repeat' split at h
  all_goals cases h
  assumption

end Line

/-- The paragraph or underlined heading that begins with the line `l`, and the lines behind it. -/
def Paragraph.begin (l : Line) (ls : List Line) : Paragraph × List Line :=
  let behind := ls.dropWhile continues
  let underline? := behind.head?.filter isUnderline
  (⟨l :: ls.takeWhile continues, underline?⟩, if underline?.isSome then behind.tail else behind)

theorem Paragraph.read?_eq_begin {l : Line} (hl : l.isBlank = false) (ls : List Line) :
    read? (l :: ls) = some (begin l ls) := by
  rw [read?, hl, begin]
  cases ended : ls.dropWhile continues with
  | nil => rfl
  | cons next rest => cases underlined : isUnderline next <;> simp [Option.filter, underlined]

theorem Paragraph.begin_snd_of_underline? {l : Line} {ls : List Line}
    (h : (begin l ls).1.underline? = none) : (begin l ls).2 = ls.dropWhile continues := by
  rw [begin] at h ⊢
  dsimp only at h ⊢
  rw [h]
  rfl

/-- Rows of tables are not indented as code. -/
theorem Table.read?_eq_none_of_isCode {l : Line} (hl : IndentedCode.isCode l = true)
    (ls : List Line) : read? (l :: ls) = none := by
  have deep : 4 ≤ l.indent := of_decide_eq_true hl
  have no : isRow l = false := by
    rw [isRow, decide_eq_false (by omega), Bool.false_and]
  unfold read?
  split
  · rename_i eq
    cases eq
    rw [no]
    rfl
  · rfl

namespace Block

/-- What an opener makes of its line and the lines behind it. -/
def opened : Opener → Line → List Line → Block × List Line
  | .blank, l, ls => (blank l, ls)
  | .fence fence, l, ls =>
    let behind := ls.dropWhile (!fence.closedBy ·)
    (fencedCode ⟨fence, l, ls.takeWhile (!fence.closedBy ·), behind.head?⟩, behind.tail)
  | .heading level, l, ls => (atxHeading ⟨level, l⟩, ls)
  | .thematicBreak, l, ls => (thematicBreak l, ls)
  | .quote, l, ls =>
    (quote ((l :: ls.takeWhile Quote.isQuoted).map Quote.strip), ls.dropWhile Quote.isQuoted)
  | .item m, l, ls => (list (ListItem.sequence [] m l ls).1, (ListItem.sequence [] m l ls).2)
  | .html, l, ls => (html (l :: ls.takeWhile (!·.isBlank)), ls.dropWhile (!·.isBlank))
  | .code, l, ls =>
    let n := Line.reach (fun _ => IndentedCode.isCode) false ls
    (indentedCode (l :: ls.take n), ls.drop n)
  | .text, l, ls =>
    match Table.read? (l :: ls) with
    | some (t, rest) => (table t, rest)
    | none => (paragraph (Paragraph.begin l ls).1, (Paragraph.begin l ls).2)

theorem fencedCode_read? (l : Line) (ls : List Line) :
    FencedCode.read? (l :: ls) = l.fence?.map fun fence =>
      (⟨fence, l, ls.takeWhile (!fence.closedBy ·), (ls.dropWhile (!fence.closedBy ·)).head?⟩,
        (ls.dropWhile (!fence.closedBy ·)).tail) := by
  rw [FencedCode.read?, Line.fence?]
  split <;> rfl

/-- The block that begins with a line is what the line opens. -/
theorem next_eq_opened (l : Line) (ls : List Line) : next l ls = opened l.opener l ls := by
  have chain := fencedCode_read? l ls
  unfold next recognise? recognisers Line.opener
  simp only [List.findSome?_cons, List.findSome?_nil]
  cases blank : l.isBlank with
  | true => simp [readBlank?, blank, opened]
  | false =>
    simp only [readBlank?, blank, Bool.false_eq_true, if_false, Option.map_none]
    rw [chain]
    cases fence : l.fence? with
    | some fence => rfl
    | none =>
      simp only [Option.map_none, AtxHeading.read?]
      cases level : AtxHeading.level? l.content with
      | some level => rfl
      | none =>
        simp only [Option.map_none, ThematicBreak.read?, Quote.read?, ListItem.read?, Html.read?,
          IndentedCode.read?]
        cases isBreak : ThematicBreak.isBreak l.content with
        | true => rfl
        | false =>
          cases quoted : Quote.isQuoted l with
          | true => rfl
          | false =>
            cases marker : ListMarker.read? l.content with
            | some m => rfl
            | none =>
              cases html : l.startsHtml with
              | true =>
                rw [Line.startsHtml] at html
                simp [html, opened]
              | false =>
                rw [Line.startsHtml] at html
                cases code : IndentedCode.isCode l with
                | true =>
                  simp [html, Table.read?_eq_none_of_isCode code, blank, opened]
                | false =>
                  simp only [html, Bool.false_eq_true, if_false, Option.map_none,
                    Bool.and_false, Paragraph.read?_eq_begin blank, opened]
                  cases Table.read? (l :: ls) <;> rfl

variable {l : Line} {ls : List Line}

/-- Running text is a table or a paragraph. -/
theorem opened_text_cases (l : Line) (ls : List Line) :
    (∃ t rest, Table.read? (l :: ls) = some (t, rest) ∧ opened .text l ls = (table t, rest)) ∨
      Table.read? (l :: ls) = none ∧
        opened .text l ls = (paragraph (Paragraph.begin l ls).1, (Paragraph.begin l ls).2) := by
  cases found : Table.read? (l :: ls) with
  | some t => exact .inl ⟨t.1, t.2, rfl, by rw [opened, found]⟩
  | none => exact .inr ⟨rfl, by rw [opened, found]⟩

theorem next_of_text (opens : l.opener = .text) (noTable : Table.read? (l :: ls) = none) :
    next l ls = (paragraph (Paragraph.begin l ls).1, (Paragraph.begin l ls).2) := by
  rw [next_eq_opened, opens, opened, noTable]

/-- Fenced code is what its reader finds. -/
theorem fencedCode_of_next {code : FencedCode} (h : (next l ls).1 = fencedCode code) :
    FencedCode.read? (l :: ls) = some (code, (next l ls).2) := by
  rw [next_eq_opened] at h ⊢
  cases opens : l.opener with
  | fence f =>
    rw [opens] at h
    cases h
    rw [fencedCode_read?, Line.fence?_of_opener opens]
    rfl
  | text =>
    rw [opens] at h
    rcases opened_text_cases l ls with ⟨t, rest, -, eq⟩ | ⟨-, eq⟩ <;> rw [eq] at h <;> cases h
  | _ => rw [opens] at h; cases h

/-- A quote is around the lines that carry its marker. -/
theorem quote_of_next {ks : List Line} (h : (next l ls).1 = quote ks) :
    l.opener = .quote ∧ ks = (l :: ls.takeWhile Quote.isQuoted).map Quote.strip := by
  rw [next_eq_opened] at h
  generalize l.opener = o at h
  cases o with
  | quote =>
    cases h
    exact ⟨rfl, rfl⟩
  | text =>
    rcases opened_text_cases l ls with ⟨t, rest, -, eq⟩ | ⟨-, eq⟩ <;> rw [eq] at h <;> cases h
  | _ => cases h

/-- A list consists of the items from its first line on. -/
theorem list_of_next {items : List ListItem} (h : (next l ls).1 = list items) :
    ∃ m, l.opener = .item m ∧ items = (ListItem.sequence [] m l ls).1 := by
  rw [next_eq_opened] at h
  generalize l.opener = o at h
  cases o with
  | item m =>
    cases h
    exact ⟨m, rfl, rfl⟩
  | text =>
    rcases opened_text_cases l ls with ⟨t, rest, -, eq⟩ | ⟨-, eq⟩ <;> rw [eq] at h <;> cases h
  | _ => cases h

/-- A paragraph is running text, and no table. -/
theorem paragraph_of_next {p : Paragraph} (h : (next l ls).1 = paragraph p) :
    l.opener = .text ∧ Table.read? (l :: ls) = none ∧ p = (Paragraph.begin l ls).1 := by
  rw [next_eq_opened] at h
  generalize l.opener = o at h
  cases o with
  | text =>
    rcases opened_text_cases l ls with ⟨t, rest, -, eq⟩ | ⟨noTable, eq⟩
    · rw [eq] at h
      cases h
    · rw [eq] at h
      cases h
      exact ⟨rfl, noTable, rfl⟩
  | _ => cases h

/-- A heading is that of its line. -/
theorem atxHeading_of_next {heading : AtxHeading} (h : (next l ls).1 = atxHeading heading) :
    l.opener = .heading heading.level ∧ heading.line = l := by
  rw [next_eq_opened] at h
  generalize l.opener = o at h
  cases o with
  | heading level =>
    cases h
    exact ⟨rfl, rfl⟩
  | text =>
    rcases opened_text_cases l ls with ⟨t, rest, -, eq⟩ | ⟨-, eq⟩ <;> rw [eq] at h <;> cases h
  | _ => cases h

/-- No line is kept as literal text. -/
theorem next_ne_literal (l : Line) (ls : List Line) (k : Line) : (next l ls).1 ≠ literal k := by
  rw [next_eq_opened]
  generalize l.opener = o
  cases o with
  | text =>
    rcases opened_text_cases l ls with ⟨t, rest, -, eq⟩ | ⟨-, eq⟩ <;> rw [eq] <;> nofun
  | _ => nofun

/-- A block takes its first line. -/
theorem suffix_next (l : Line) (ls : List Line) : (next l ls).2 <:+ ls :=
  (suffix_and_lighter_of_next rfl).1

/-- Some recogniser takes each line. -/
theorem recognise?_eq_some_next (l : Line) (ls : List Line) :
    recognise? (l :: ls) = some (next l ls) := by
  cases found : recognise? (l :: ls) with
  | some result => rw [next, found, Option.getD_some]
  | none =>
    have kept : (next l ls).1 = literal l := by rw [next, found, Option.getD_none]
    exact absurd kept (next_ne_literal l ls l)

end Block

end TierLint
