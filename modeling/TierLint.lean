import TierLint.Block.AtxHeading
import TierLint.Block.Basic
import TierLint.Block.Elements
import TierLint.Block.FencedCode
import TierLint.Block.FrontMatter
import TierLint.Block.Html
import TierLint.Block.IndentedCode
import TierLint.Block.Interruption
import TierLint.Block.Line
import TierLint.Block.ListItem
import TierLint.Block.ListMarker
import TierLint.Block.Paragraph
import TierLint.Block.Quote
import TierLint.Block.Table
import TierLint.Block.ThematicBreak
import TierLint.CommandLine.Argument
import TierLint.CommandLine.JsonReport
import TierLint.CommandLine.PlainReport
import TierLint.CommandLine.Report
import TierLint.CommandLine.Request
import TierLint.CommandLine.Run
import TierLint.Document
import TierLint.Failure
import TierLint.Files.Entry
import TierLint.Files.Tree
import TierLint.Glob.Match
import TierLint.Glob.Parse
import TierLint.Glob.Reach
import TierLint.Glob.Token
import TierLint.Inline.Autolink
import TierLint.Inline.CodeSpan
import TierLint.Inline.Elements
import TierLint.Inline.Emphasis
import TierLint.Inline.Escape
import TierLint.Inline.Link
import TierLint.Inline.Markup
import TierLint.Json
import TierLint.Lexicon.Basic
import TierLint.Lexicon.Emoji
import TierLint.Lexicon.WordList
import TierLint.Lint.Diagnostic
import TierLint.Lint.LineLength
import TierLint.Lint.Linter
import TierLint.Lint.Position
import TierLint.Lint.Rule
import TierLint.Lint.Subject
import TierLint.Main
import TierLint.Path
import TierLint.Proofs.Block.Alike
import TierLint.Proofs.Block.Coverage
import TierLint.Proofs.Block.Every
import TierLint.Proofs.Block.Locality
import TierLint.Proofs.Block.Lossless
import TierLint.Proofs.Block.Sequence
import TierLint.Proofs.Block.Shape
import TierLint.Proofs.Document.Alike
import TierLint.Proofs.Document.Framed
import TierLint.Proofs.Document.Lossless
import TierLint.Proofs.Document.Quoted
import TierLint.Proofs.Document.Total
import TierLint.Proofs.Glob.Alignment
import TierLint.Proofs.Glob.Language
import TierLint.Proofs.Glob.Segments
import TierLint.Proofs.InStep
import TierLint.Proofs.Inline.Every
import TierLint.Proofs.Inline.Readers
import TierLint.Proofs.Inline.Spelling
import TierLint.Proofs.Lexicon.Rebroken
import TierLint.Proofs.Lint.Autolink
import TierLint.Proofs.Lint.Correspondence
import TierLint.Proofs.Lint.Dispatch
import TierLint.Proofs.Lint.LineEnds
import TierLint.Proofs.Lint.Inert
import TierLint.Proofs.Lint.Position
import TierLint.Proofs.Lint.Quoted
import TierLint.Proofs.Offsets.AtxHeading
import TierLint.Proofs.Offsets.Autolink
import TierLint.Proofs.Offsets.Basic
import TierLint.Proofs.Offsets.Blocks
import TierLint.Proofs.Offsets.CodeSpan
import TierLint.Proofs.Offsets.Container
import TierLint.Proofs.Offsets.Document
import TierLint.Proofs.Offsets.Emphasis
import TierLint.Proofs.Offsets.FencedCode
import TierLint.Proofs.Offsets.Inline
import TierLint.Proofs.Offsets.Leaf
import TierLint.Proofs.Offsets.Line
import TierLint.Proofs.Offsets.Lines
import TierLint.Proofs.Offsets.Link
import TierLint.Proofs.Offsets.ListMarker
import TierLint.Proofs.Offsets.Opening
import TierLint.Proofs.Offsets.Paragraph
import TierLint.Proofs.Offsets.Table
import TierLint.Proofs.Outcome
import TierLint.Proofs.Syntax.Alike
import TierLint.Proofs.Syntax.Every
import TierLint.Proofs.Syntax.Order
import TierLint.Proofs.Syntax.Prose
import TierLint.Proofs.Syntax.Spelling
import TierLint.Proofs.Syntax.Token
import TierLint.Proofs.Syntax.Traversal
import TierLint.Proofs.Text.Bytes
import TierLint.Proofs.Text.Cut
import TierLint.Proofs.Text.Rebroken
import TierLint.Proofs.Text.Run
import TierLint.Proofs.Text.Stretch
import TierLint.Proofs.Tier.HiddenSegments
import TierLint.Proofs.Unicode.CaseMapping
import TierLint.Settings.Basic
import TierLint.Settings.Decode
import TierLint.Settings.Discovery
import TierLint.Settings.Toml.DateTime
import TierLint.Settings.Toml.Key
import TierLint.Settings.Toml.Layout
import TierLint.Settings.Toml.Literal
import TierLint.Settings.Toml.Numeral
import TierLint.Settings.Toml.Statement
import TierLint.Settings.Toml.StringLiteral
import TierLint.Settings.Toml.Table
import TierLint.Settings.Value
import TierLint.Syntax.Dump
import TierLint.Syntax.Element
import TierLint.Syntax.Kind
import TierLint.Syntax.Prose
import TierLint.Syntax.TextRun
import TierLint.Syntax.Visit
import TierLint.Text
import TierLint.Text.Quoted
import TierLint.Tier.Basic
import TierLint.Tier.Classifier
import TierLint.Unicode.Alphabetic
import TierLint.Unicode.CodeRange
import TierLint.Unicode.Folding
import TierLint.Unicode.Lowercase
import TierLint.Unicode.Printable
import TierLint.Unicode.WhiteSpace
import TierLint.Unicode.Word
import TierLint.Proofs.Glob.Case
import TierLint.Proofs.Path.Lexical
import TierLint.Proofs.Path.Respelled
import TierLint.Proofs.Tier.Spelling
import TierLint.Proofs.Tier.Case
import TierLint.Proofs.Glob.Directories
import TierLint.Proofs.Tier.Union
import TierLint.Proofs.Tier.Standard
import TierLint.Proofs.Glob.WellFormed
import TierLint.Proofs.Settings.Discovery
import TierLint.Proofs.Tier.Rejection
import TierLint.Proofs.CommandLine.Tally
import TierLint.Proofs.CommandLine.Summary
import TierLint.Proofs.Document.Runs
import TierLint.Proofs.Block.Opener
import TierLint.Proofs.Block.Origin
import TierLint.Proofs.Document.Origin
import TierLint.Proofs.Block.Continuation
import TierLint.Proofs.Document.HeadingLevel
import TierLint.Proofs.Document.Interruption
import TierLint.Proofs.Document.LazyLines
import TierLint.Proofs.Document.Precedence
import TierLint.Proofs.Inline.Brackets
import TierLint.Proofs.Block.Pipes
import TierLint.Proofs.Inline.Escape
import TierLint.Proofs.Block.QuoteMarkers
import TierLint.Proofs.Document.Lists
import TierLint.Proofs.Inline.Canonical
import TierLint.Proofs.Inline.Emphasis
import TierLint.Proofs.Inline.RoundTrip
import TierLint.Proofs.Document.Bulleted
import TierLint.Proofs.Document.Fences
import TierLint.Proofs.Lexicon.WholeWords
import TierLint.Proofs.Lexicon.EmojiScan
import TierLint.Proofs.Lint.HeadingOrder
import TierLint.Proofs.Lint.LineLength
import TierLint.Proofs.Lexicon.Occurrences
import TierLint.Proofs.Syntax.ProseBetween
import TierLint.Proofs.Document.RunProse
import TierLint.Proofs.Lint.ModalVerbs
import TierLint.Proofs.Inline.ClosingRun
import TierLint.Proofs.Document.HeadingRoundTrip
import TierLint.Proofs.Block.Progress
import TierLint.Proofs.Offsets.Progress
