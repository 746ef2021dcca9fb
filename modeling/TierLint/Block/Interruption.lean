import TierLint.Block.AtxHeading
import TierLint.Block.FencedCode
import TierLint.Block.Html
import TierLint.Block.ListMarker
import TierLint.Block.ThematicBreak

/-!
# What interrupts a paragraph

A paragraph goes on until a blank line or a line that opens another kind of
block. Tables, indented code and some list markers do not interrupt.
-/

set_option autoImplicit false

namespace TierLint

open Text

/-- The line opens a block that ends a paragraph in front of it. -/
def Line.interruptsParagraph (l : Line) : Bool :=
  l.indent ≤ 3
    && ((Fence.open? (trimStart l.content)).isSome
      || (AtxHeading.level? l.content).isSome
      || ThematicBreak.isBreak l.content
      || startsBy (· == '>') (trimStart l.content)
      || ListMarker.interrupts l.content
      || Html.startsBlock (trimStart l.content))

end TierLint
