import TierLint.Inline.Markup
import TierLint.Syntax.Element

/-!
# Elements of running text

Running text is a sequence of constructs with literal text between them. A run
of backticks or emphasis delimiters that opens nothing is literal as a whole;
any other character that opens nothing is literal by itself. Literal text
between two constructs is always one token, because each literal piece is
joined to the text token behind it.

The only context a construct depends on is the character in front of it. It
starts anew inside links and emphasis.
-/

set_option autoImplicit false

namespace TierLint

/-- The element for a construct, given the elements of its running text. -/
def Markup.element (inside : List Element) : Markup → Element
  | .escape c => .token .escapedChar ['\\', c]
  | .codeSpan s =>
    .node .codeSpan <|
      .token .codeSpanMarker s.marker :: Element.tokenUnlessEmpty .text s.content
        ++ [.token .codeSpanMarker s.marker]
  | .autolink address => .token .autolink (Autolink.source address)
  | .image l =>
    .node .image <|
      .token .imageStart ['!', '['] :: Element.tokenUnlessEmpty .imageText l.label
        ++ [.token .linkDestination l.tail]
  | .link l =>
    .node .link
      [.token .linkStart ['['], .node .linkText inside, .token .linkDestination l.tail]
  | .emphasis e =>
    let mark := Element.token (if e.strong then .strongMarker else .emphasisMarker) e.marker
    .node (if e.strong then .strong else .emphasis) (mark :: inside ++ [mark])

namespace Inline

/-- Puts literal text in front of elements, joined to a text token they begin with. -/
def consText (t : Text) : List Element → List Element
  | .token .text u :: es => .token .text (t ++ u) :: es
  | es => .token .text t :: es

/-- Number of further characters that are literal together with `c`, which opens
nothing: the rest of its run, for backticks and emphasis delimiters. -/
def literalRepeats (c : Char) (rest : Text) : Nat :=
  if c == '`' || c == '*' || c == '_' then Text.runLength c rest else 0

/-- The elements of running text that stands behind the character `before`. -/
def elementsBehind (before : Option Char) (t : Text) : List Element :=
  match t with
  | [] => []
  | c :: rest =>
    match h : Markup.read? before (c :: rest) with
    | some (m, after) =>
      m.element (elementsBehind none m.inner) :: elementsBehind (some m.last) after
    | none =>
      let n := literalRepeats c rest
      consText (List.replicate (1 + n) c) (elementsBehind (some c) (rest.drop n))
termination_by t.length
decreasing_by
  · exact (Markup.length_lt_of_read? h).2
  · exact (Markup.length_lt_of_read? h).1
  · simp only [List.length_cons, List.length_drop]
    omega

/-- The elements of running text. -/
def elements (t : Text) : List Element := elementsBehind none t

end Inline

end TierLint
