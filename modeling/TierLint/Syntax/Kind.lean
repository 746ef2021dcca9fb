/-!
# Kinds of syntax elements

Each token and node of a syntax tree has a kind. `Kind.name` is the spelling
used wherever a tree is shown; distinct kinds have distinct names.
-/

set_option autoImplicit false

namespace TierLint

/-- What an element of a syntax tree stands for. -/
inductive Kind where
  /-- White space: line prefixes, indentation, and space around markers. -/
  | whitespace
  /-- A line end. -/
  | newline
  /-- Literal prose or code. -/
  | text
  /-- A backslash and the punctuation character it escapes. -/
  | escapedChar
  /-- The `>` in front of a quoted line. -/
  | blockQuoteMarker
  /-- A bullet or a number with its delimiter. -/
  | listMarker
  /-- The characters of a thematic break. -/
  | horizontalRule
  /-- A blank line. -/
  | blankLine
  /-- The line above or below front matter. -/
  | frontMatterDelimiter
  /-- A line of front matter. -/
  | frontMatterContent
  /-- A line of raw HTML. -/
  | htmlContent
  /-- An address in angle brackets. -/
  | autolink
  /-- The bracket that opens a link text. -/
  | linkStart
  /-- The bracket that closes a link text, with the destination behind it. -/
  | linkDestination
  /-- The mark and bracket that open an image text. -/
  | imageStart
  /-- The text of an image. -/
  | imageText
  /-- The backticks around a code span. -/
  | codeSpanMarker
  /-- The backticks or tildes of a code fence. -/
  | codeFenceMarker
  /-- What follows the opening fence on its line. -/
  | codeInfo
  /-- One `*` or `_` around emphasis. -/
  | emphasisMarker
  /-- Two `*` or `_` around strong emphasis. -/
  | strongMarker
  /-- The `|` between table cells. -/
  | tablePipe
  /-- The whole tree. -/
  | root
  /-- The blocks of the document. -/
  | document
  /-- Front matter with its delimiters. -/
  | frontMatter
  /-- A paragraph. -/
  | paragraph
  /-- A block quote. -/
  | blockQuote
  /-- A list. -/
  | list
  /-- An item of a list. -/
  | listItem
  /-- A block of raw HTML. -/
  | htmlBlock
  /-- A thematic break. -/
  | thematicBreak
  /-- Emphasised text. -/
  | emphasis
  /-- Strongly emphasised text. -/
  | strong
  /-- Code inside a line. -/
  | codeSpan
  /-- A link. -/
  | link
  /-- The text of a link. -/
  | linkText
  /-- An image. -/
  | image
  /-- A heading. -/
  | heading
  /-- The text of a heading. -/
  | headingContent
  /-- The `#` run of a heading: a node in front of the text, a token behind it. -/
  | headingMarker
  /-- The underline of a heading, and the line that holds it. -/
  | headingUnderline
  /-- A fenced or indented code block. -/
  | codeBlock
  /-- The line that opens a fenced code block. -/
  | codeFenceOpen
  /-- The line that closes a fenced code block. -/
  | codeFenceClose
  /-- The lines of a code block. -/
  | codeContent
  /-- A table. -/
  | table
  /-- A header or body row of a table. -/
  | tableRow
  /-- The row under the header of a table. -/
  | tableSeparator
  /-- A cell of a table row. -/
  | tableCell
  deriving DecidableEq

namespace Kind

/-- The name of a kind. -/
def name : Kind → String
  | .whitespace => "WHITESPACE"
  | .newline => "NEWLINE"
  | .text => "TEXT"
  | .escapedChar => "EscapedChar"
  | .blockQuoteMarker => "BlockQuoteMarker"
  | .listMarker => "ListMarker"
  | .horizontalRule => "HorizontalRule"
  | .blankLine => "BlankLine"
  | .frontMatterDelimiter => "YamlMetadataDelim"
  | .frontMatterContent => "YamlContent"
  | .htmlContent => "HtmlContent"
  | .autolink => "AutoLink"
  | .linkStart => "LinkStart"
  | .linkDestination => "LinkDest"
  | .imageStart => "ImageLinkStart"
  | .imageText => "ImageAlt"
  | .codeSpanMarker => "CodeSpanMarker"
  | .codeFenceMarker => "CodeFenceMarker"
  | .codeInfo => "CodeInfo"
  | .emphasisMarker => "EmphasisMarker"
  | .strongMarker => "StrongMarker"
  | .tablePipe => "TablePipe"
  | .root => "ROOT"
  | .document => "DOCUMENT"
  | .frontMatter => "YamlMetadata"
  | .paragraph => "PARAGRAPH"
  | .blockQuote => "BlockQuote"
  | .list => "List"
  | .listItem => "ListItem"
  | .htmlBlock => "HtmlBlock"
  | .thematicBreak => "ThematicBreak"
  | .emphasis => "Emphasis"
  | .strong => "Strong"
  | .codeSpan => "CodeSpan"
  | .link => "Link"
  | .linkText => "LinkText"
  | .image => "ImageLink"
  | .heading => "Heading"
  | .headingContent => "HeadingContent"
  | .headingMarker => "AtxHeadingMarker"
  | .headingUnderline => "SetextHeadingUnderline"
  | .codeBlock => "CodeBlock"
  | .codeFenceOpen => "CodeFenceOpen"
  | .codeFenceClose => "CodeFenceClose"
  | .codeContent => "CodeContent"
  | .table => "PipeTable"
  | .tableRow => "TableRow"
  | .tableSeparator => "TableSeparator"
  | .tableCell => "TableCell"

/-- All kinds. -/
def all : List Kind :=
  [.whitespace, .newline, .text, .escapedChar, .blockQuoteMarker, .listMarker,
   .horizontalRule, .blankLine, .frontMatterDelimiter, .frontMatterContent, .htmlContent,
   .autolink, .linkStart, .linkDestination, .imageStart, .imageText, .codeSpanMarker,
   .codeFenceMarker, .codeInfo, .emphasisMarker, .strongMarker, .tablePipe, .root,
   .document, .frontMatter, .paragraph, .blockQuote, .list, .listItem, .htmlBlock,
   .thematicBreak, .emphasis, .strong, .codeSpan, .link, .linkText, .image, .heading,
   .headingContent, .headingMarker, .headingUnderline, .codeBlock, .codeFenceOpen,
   .codeFenceClose, .codeContent, .table, .tableRow, .tableSeparator, .tableCell]

/-- The kind with the given name. -/
def ofName? (s : String) : Option Kind := all.find? (·.name == s)

/-- Nodes whose text is literal code. -/
def isCode : Kind → Bool
  | codeSpan | codeBlock => true
  | _ => false

end Kind

end TierLint
