import TierLint.Glob.Token

/-!
# Reading globs

Patterns are read from left to right, one character at a time, with the tokens
of the branch read last and the groups of alternatives that are still open. A
double star needs its surroundings: what stands in front of it decides whether
it can stand for directories, and what follows decides which form it takes.
-/

set_option autoImplicit false

namespace TierLint.Glob

/-- A group of alternatives that is still open: the tokens in front of it, and
its finished branches, both with the last one first. -/
structure Group where
  before : List Token
  branches : List (List Token)

/-- What has been read: the tokens of the current branch, last one first, and
the open groups around it, innermost first. -/
structure Progress where
  tokens : List Token
  groups : List Group

namespace Progress

/-- Adds a token to the current branch. -/
def push (p : Progress) (t : Token) : Progress := { p with tokens := t :: p.tokens }

/-- Opens a group. -/
def openGroup (p : Progress) : Progress := ⟨[], ⟨p.tokens, []⟩ :: p.groups⟩

/-- Begins another branch. A comma outside of groups is a literal. -/
def comma (p : Progress) : Progress :=
  match p.groups with
  | [] => p.push (.literal ',')
  | g :: outer => ⟨[], { g with branches := p.tokens.reverse :: g.branches } :: outer⟩

/-- Closes the innermost group. -/
def closeGroup? (p : Progress) : Option Progress :=
  match p.groups with
  | [] => none
  | g :: outer =>
    some ⟨.alternatives (p.tokens.reverse :: g.branches).reverse :: g.before, outer⟩

/-- The forms of a double star. -/
inductive DoubleStar where
  /-- Two single stars. -/
  | twoStars
  /-- Directories at the beginning of a branch. -/
  | leading
  /-- Directories between slashes. -/
  | inner
  /-- Anything below a directory. -/
  | below

/-- The form of a double star between the characters `before` and `after`. It
stands for directories at the beginning of a branch and behind a slash; inside
of a group also behind a comma or brace, even an escaped one. -/
def doubleStar (p : Progress) (before after : Option Char) : DoubleStar :=
  let inGroup := !p.groups.isEmpty
  if p.tokens.isEmpty then
    if after.all (· == '/') then .leading else .twoStars
  else if before == some '/' || (inGroup && (before == some ',' || before == some '{')) then
    match after with
    | none => .below
    | some c =>
      if c == '/' then .inner
      else if inGroup && (c == ',' || c == '}') then .below
      else .twoStars
  else .twoStars

/-- Puts a token for directories in place of the token in front, which was the
slash before the double star; a token for directories without end stays. -/
def replaceLast (p : Progress) (t : Token) : Progress :=
  match p.tokens with
  | .leadingDirs :: _ => p
  | .belowDir :: _ => p
  | _ :: older => { p with tokens := t :: older }
  | [] => p

/-- Adds a double star. -/
def pushDoubleStar (p : Progress) : DoubleStar → Progress
  | .twoStars => (p.push .many).push .many
  | .leading => p.push .leadingDirs
  | .inner => p.replaceLast .innerDirs
  | .below => p.replaceLast .belowDir

/-- The slash behind a double star belongs to it. -/
def DoubleStar.takesSlash : DoubleStar → Bool
  | .leading | .inner => true
  | .twoStars | .below => false

end Progress

/-- Reads the rest of a class, of which `ranges` are read, last one first. A
bracket or dash at the beginning is a member; a dash at the end is too. Any
other dash extends the range in front of it. -/
def classRanges (atStart inRange : Bool) (ranges : List (Char × Char)) :
    Text → Except Error (List (Char × Char) × Text)
  | [] => .error .unclosedClass
  | c :: rest =>
    if c == ']' && !atStart then
      .ok ((if inRange then ('-', '-') :: ranges else ranges).reverse, rest)
    else if c == '-' && !atStart && !inRange then
      classRanges false true ranges rest
    else
      match inRange, ranges with
      | true, (first, _) :: older =>
        -- a range that was extended before begins where it began: `a-c-e` is `a-e`
        if c < first then .error (.invalidRange first c)
        else classRanges false false ((first, c) :: older) rest
      | _, _ => classRanges false false ((c, c) :: ranges) rest

/-- Reads a class behind its opening bracket. -/
def readClass (t : Text) : Except Error (Token × Text) :=
  let negated := Text.startsBy (fun c => c == '!' || c == '^') t
  (classRanges true false [] (if negated then t.tail else t)).map fun (ranges, rest) =>
    (.oneOf negated ranges, rest)

theorem classRanges_length_lt {atStart inRange : Bool} {ranges result : List (Char × Char)}
    {t after : Text} (h : classRanges atStart inRange ranges t = .ok (result, after)) :
    after.length < t.length := by
  fun_induction classRanges atStart inRange ranges t generalizing result after with
  | case1 => simp at h
  | case2 =>
    obtain ⟨-, rfl⟩ := by simpa using h
    simp
  | case3 _ _ _ _ _ _ _ ih =>
    exact Nat.lt_succ_of_lt (ih h)
  | case4 => simp at h
  | case5 =>
    rename_i ih
    exact Nat.lt_succ_of_lt (ih h)
  | case6 _ _ _ _ _ _ _ _ ih =>
    exact Nat.lt_succ_of_lt (ih h)

theorem readClass_length_lt {t after : Text} {token : Token}
    (h : readClass t = .ok (token, after)) : after.length < t.length := by
  unfold readClass at h
  generalize Text.startsBy (fun c => c == '!' || c == '^') t = negated at h
  cases hr : classRanges true false [] (if negated then t.tail else t) with
  | error e => simp [hr, Except.map] at h
  | ok result =>
    obtain ⟨ranges, rest⟩ := result
    obtain ⟨-, rfl⟩ := by simpa [hr, Except.map] using h
    have := classRanges_length_lt hr
    split at this
    · simp at this
      omega
    · exact this

/-- Reads the rest of a pattern behind the character `before`. -/
def readFrom (before : Option Char) (p : Progress) (t : Text) : Except Error (List Token) :=
  match t with
  | [] => if p.groups.isEmpty then .ok p.tokens.reverse else .error .unclosedAlternatives
  | '?' :: rest => readFrom (some '?') (p.push .one) rest
  | '*' :: '*' :: rest =>
    let form := p.doubleStar before rest.head?
    -- what follows then stands behind that slash, so another double star may follow directly
    if form.takesSlash then readFrom (some '/') (p.pushDoubleStar form) (rest.drop 1)
    else readFrom (some '*') (p.pushDoubleStar form) rest
  | '*' :: rest => readFrom (some '*') (p.push .many) rest
  | '[' :: rest =>
    match _h : readClass rest with
    | .ok (token, after) => readFrom (some ']') (p.push token) after
    | .error e => .error e
  | '{' :: rest => readFrom (some '{') p.openGroup rest
  | '}' :: rest =>
    match p.closeGroup? with
    | some p' => readFrom (some '}') p' rest
    | none => .error .unopenedAlternatives
  | ',' :: rest => readFrom (some ',') p.comma rest
  | '\\' :: [] => .error .danglingEscape
  | '\\' :: c :: rest => readFrom (some c) (p.push (.literal c)) rest
  | c :: rest => readFrom (some c) (p.push (.literal c)) rest
termination_by t.length
decreasing_by
  all_goals first
    | exact Nat.lt_succ_of_lt (readClass_length_lt _h)
    | (simp; try omega)

/-- Reads a pattern. -/
def parse (t : Text) : Except Error Glob := (readFrom none ⟨[], []⟩ t).map Glob.mk

end TierLint.Glob
