import TierLint.Syntax.Prose

/-!
# Text runs

A text run is a stretch of prose directly below one node: text and escaped
characters, joined across line ends and the line prefixes behind them. Any
other child of the node ends the run. A line end between two pieces of prose
becomes one line feed, whatever its form in the document; line ends at the
edges of a run leave no trace.
-/

set_option autoImplicit false

namespace TierLint

/-- A stretch of prose, from the start of its first token to the end of its
last, with the nodes around it from the root down to its parent. -/
structure TextRun where
  text : Text
  start : Nat
  stop : Nat
  ancestors : List Element

namespace TextRun

/-- The run is literal code. -/
def inCode (r : TextRun) : Bool := r.ancestors.any (·.kind.isCode)

/-- A run that further siblings may continue; `broken` tells that a line has
ended since its last piece of prose. -/
structure Open where
  text : Text
  start : Nat
  stop : Nat
  broken : Bool

/-- The run with another piece of prose from byte `start` to byte `stop`. -/
def Open.extend (run? : Option Open) (piece : Text) (start stop : Nat) : Open :=
  match run? with
  | some run =>
    ⟨run.text ++ (if run.broken then ['\n'] else []) ++ piece, run.start, stop, false⟩
  | none => ⟨piece, start, stop, false⟩

/-- The run below the nodes `above`, if one was open. -/
def Open.finish (above : List Element) (run? : Option Open) : List TextRun :=
  run?.toList.map fun run => ⟨run.text, run.start, run.stop, above⟩

/-- What a sibling does to a run. -/
inductive Effect where
  /-- It adds a piece of prose. -/
  | extends (piece : Text)
  /-- It ends a line. -/
  | breaks
  /-- It leaves the run as it is. -/
  | keeps
  /-- It ends the run. -/
  | ends

/-- The effect of an element on the run in front of it. -/
def effect : Element → Effect
  | .token .text t => .extends t
  | .token .escapedChar t => .extends (Element.escapedText t)
  | .token .newline _ => .breaks
  | .token .whitespace _ => .keeps
  | .token .blockQuoteMarker _ => .keeps
  | _ => .ends

mutual

/-- The runs inside `e`, which stands at byte `start` under `above`. -/
def runsFrom (above : List Element) (start : Nat) : Element → List TextRun
  | .token _ _ => []
  | .node k es => runsFromAll (above ++ [.node k es]) start none es

/-- The runs of consecutive siblings, the first of which stands at byte `start`
behind the open run. -/
def runsFromAll (above : List Element) (start : Nat) (run? : Option Open) :
    List Element → List TextRun
  | [] => Open.finish above run?
  | e :: es =>
    let stop := start + e.byteLength
    match effect e with
    | .extends piece => runsFromAll above stop (some (Open.extend run? piece start stop)) es
    | .breaks => runsFromAll above stop (run?.map fun run => { run with broken := true }) es
    | .keeps => runsFromAll above stop run? es
    -- the run ends in front of the runs inside the element that ends it
    | .ends => Open.finish above run? ++ runsFrom above start e ++ runsFromAll above stop none es

end

end TextRun

/-- The text runs of a tree in document order. -/
def Element.textRuns (tree : Element) : List TextRun := TextRun.runsFrom [] 0 tree

end TierLint
