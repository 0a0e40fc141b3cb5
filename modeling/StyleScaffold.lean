import StyleScaffold.Command.Builtin
import StyleScaffold.Command.Invocation
import StyleScaffold.Command.Library
import StyleScaffold.Command.Options
import StyleScaffold.Command.Report
import StyleScaffold.Command.Run
import StyleScaffold.Command.Workspace
import StyleScaffold.Component.Basic
import StyleScaffold.Component.TokenModule
import StyleScaffold.Css.Analysis
import StyleScaffold.Css.Block
import StyleScaffold.Css.Comment
import StyleScaffold.Css.ComponentName
import StyleScaffold.Css.Declaration
import StyleScaffold.Design.Color
import StyleScaffold.Design.Conversion
import StyleScaffold.Design.Link
import StyleScaffold.Design.Node
import StyleScaffold.Design.Reader
import StyleScaffold.Design.Style
import StyleScaffold.Json.Access
import StyleScaffold.Json.Basic
import StyleScaffold.Json.Display
import StyleScaffold.Json.Parser
import StyleScaffold.Json.Printer
import StyleScaffold.Main
import StyleScaffold.Number.Binary64
import StyleScaffold.Number.Literal
import StyleScaffold.Number.Shortest
import StyleScaffold.OrderedMap
import StyleScaffold.Proofs.Command.Invocation
import StyleScaffold.Proofs.Command.Output
import StyleScaffold.Proofs.Component
import StyleScaffold.Proofs.Component.Scaffold
import StyleScaffold.Proofs.Css.BlockDeclarations
import StyleScaffold.Proofs.Css.BlockFactorization
import StyleScaffold.Proofs.Css.Color
import StyleScaffold.Proofs.Css.Comment
import StyleScaffold.Proofs.Css.CommentRemoval
import StyleScaffold.Proofs.Css.ComponentName
import StyleScaffold.Proofs.Css.Declaration
import StyleScaffold.Proofs.Css.DeclarationRoundTrip
import StyleScaffold.Proofs.Css.Finding
import StyleScaffold.Proofs.Css.LastSemicolon
import StyleScaffold.Proofs.Css.MinifiedAnalysis
import StyleScaffold.Proofs.Css.Rewriting
import StyleScaffold.Proofs.Css.RuleLayout
import StyleScaffold.Proofs.Css.Selector
import StyleScaffold.Proofs.Css.SingleBlock
import StyleScaffold.Proofs.Css.SolidLines
import StyleScaffold.Proofs.Css.Unfinished
import StyleScaffold.Proofs.Design.Component
import StyleScaffold.Proofs.Design.Conversion
import StyleScaffold.Proofs.Design.Reading
import StyleScaffold.Proofs.Design.Style
import StyleScaffold.Proofs.Design.Tree
import StyleScaffold.Proofs.Except
import StyleScaffold.Proofs.Json.Reading
import StyleScaffold.Proofs.Number.Binary64
import StyleScaffold.Proofs.Number.Numeral
import StyleScaffold.Proofs.Number.Rounded
import StyleScaffold.Proofs.OrderedMap
import StyleScaffold.Proofs.Remote.Calls
import StyleScaffold.Proofs.Repetition
import StyleScaffold.Proofs.Stylesheet
import StyleScaffold.Proofs.Stylesheet.Comment
import StyleScaffold.Proofs.Stylesheet.FirstBlock
import StyleScaffold.Proofs.Stylesheet.LineEnd
import StyleScaffold.Proofs.Stylesheet.MinifiedRule
import StyleScaffold.Proofs.Stylesheet.Refusal
import StyleScaffold.Proofs.Stylesheet.WrittenRule
import StyleScaffold.Proofs.Text.Collapse
import StyleScaffold.Proofs.Text.LowerCase
import StyleScaffold.Proofs.Text.Pieces
import StyleScaffold.Proofs.Text.Plain
import StyleScaffold.Proofs.Text.Trim
import StyleScaffold.Proofs.Text.Words
import StyleScaffold.Proofs.Utility.ClassText
import StyleScaffold.Proofs.Utility.CollapsedValue
import StyleScaffold.Proofs.Utility.Concatenation
import StyleScaffold.Proofs.Utility.Overflow
import StyleScaffold.Remote.Address
import StyleScaffold.Remote.Client
import StyleScaffold.Remote.Host
import StyleScaffold.Remote.Message
import StyleScaffold.Service
import StyleScaffold.Service.Route
import StyleScaffold.Settings
import StyleScaffold.Stylesheet
import StyleScaffold.Text.Ascii
import StyleScaffold.Text.Basic
import StyleScaffold.Text.Blank
import StyleScaffold.Text.CodePoint
import StyleScaffold.Text.Digit
import StyleScaffold.Text.Encoding
import StyleScaffold.Text.Hex
import StyleScaffold.Text.Lines
import StyleScaffold.Text.LowerCase
import StyleScaffold.Text.Percent
import StyleScaffold.Text.Printable
import StyleScaffold.Text.Punycode
import StyleScaffold.Text.Quoted
import StyleScaffold.Text.Ranges
import StyleScaffold.Text.TerminalCode
import StyleScaffold.Text.Utf8
import StyleScaffold.Text.WordChar
import StyleScaffold.Utility.Classes
import StyleScaffold.Utility.Pixel
import StyleScaffold.Utility.Policy
import StyleScaffold.Utility.Rule
import StyleScaffold.Proofs.Css.BlockComposition
import StyleScaffold.Proofs.Css.BlockNesting
import StyleScaffold.Proofs.Css.DeclarationLayout
import StyleScaffold.Proofs.Css.MinifiedComment
import StyleScaffold.Proofs.Css.CustomProperty
import StyleScaffold.Proofs.Number.ExactNumeral
import StyleScaffold.Proofs.Number.Quarter
import StyleScaffold.Proofs.Stylesheet.PropertySheet
import StyleScaffold.Proofs.Utility.PixelLength
import StyleScaffold.Proofs.Css.MinifiedForm
import StyleScaffold.Proofs.Design.Pixels
import StyleScaffold.Proofs.Design.PublishedStyles
import StyleScaffold.Proofs.Design.Recognised
import StyleScaffold.Proofs.Number.SignificantDigits
import StyleScaffold.Proofs.Design.NodeTokens
import StyleScaffold.Proofs.Design.HiddenPaint
import StyleScaffold.Proofs.Css.FirstComment
import StyleScaffold.Proofs.Component.Identifier
import StyleScaffold.Proofs.Stylesheet.LeadingComment
import StyleScaffold.Proofs.Design.Link
import StyleScaffold.Proofs.Design.PaddedLink
import StyleScaffold.Proofs.Component.TokenModule
import StyleScaffold.Proofs.Css.ReadableMap
import StyleScaffold.Proofs.Css.ColorPalette
import StyleScaffold.Proofs.Number.Monotone
import StyleScaffold.Proofs.Utility.Ladder
import StyleScaffold.Proofs.Design.ColorText
