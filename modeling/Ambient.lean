import Ambient.CommandLine
import Ambient.Comment
import Ambient.Declaration.Basic
import Ambient.Declaration.Emission
import Ambient.Declaration.Global
import Ambient.Declaration.Output
import Ambient.Description
import Ambient.Failure
import Ambient.Html.Event
import Ambient.Html.Reference
import Ambient.Html.Tree
import Ambient.Json.Printer
import Ambient.Json.Reader
import Ambient.Json.Value
import Ambient.Link.Address
import Ambient.Link.Check
import Ambient.Link.Host
import Ambient.Link.Page
import Ambient.Main
import Ambient.Markdown.Basic
import Ambient.Markdown.Element
import Ambient.Number.Basic
import Ambient.Number.Shortest
import Ambient.Prose.Block
import Ambient.Prose.CodeSpan
import Ambient.Prose.Phrase
import Ambient.Prose.Wrap
import Ambient.Settings
import Ambient.Signature.Basic
import Ambient.Signature.Rules
import Ambient.Symbol.Basic
import Ambient.Symbol.Document
import Ambient.Synthesis.Enumeration
import Ambient.Synthesis.Hint
import Ambient.Synthesis.Interface
import Ambient.Table
import Ambient.Text.Basic
import Ambient.Text.Blank
import Ambient.Text.Case
import Ambient.Text.Digit
import Ambient.Text.Fold
import Ambient.Text.Order
import Ambient.Text.Quoted
import Ambient.Text.Utf8
import Ambient.Text.Word
import Ambient.TypeExpr.Basic
import Ambient.TypeExpr.Parser
import Ambient.TypeExpr.Token
import Ambient.Warning
import Ambient.Proofs.TypeExpr.Grammar
import Ambient.Proofs.TypeExpr.Tree
import Ambient.Proofs.TypeExpr.Completeness
import Ambient.Proofs.TypeExpr.Spelling
import Ambient.Proofs.TypeExpr.RoundTrip
import Ambient.Proofs.TypeExpr.Printable
import Ambient.Proofs.Signature.Declared
import Ambient.Proofs.Signature.OnePass
import Ambient.Proofs.TypeExpr.Rerendering
import Ambient.Proofs.TypeExpr.Shape
import Ambient.Proofs.TypeExpr.Written
import Ambient.Proofs.Signature.Idempotent
import Ambient.Proofs.Signature.Closure
import Ambient.Proofs.Declaration.Members
import Ambient.Proofs.Declaration.Interfaces
import Ambient.Proofs.Declaration.Isolation
import Ambient.Proofs.TypeExpr.Construction
import Ambient.Proofs.TypeExpr.Faithful
import Ambient.Proofs.TypeExpr.FunctionType
import Ambient.Proofs.Description.Shape
import Ambient.Proofs.Declaration.Calls
import Ambient.Proofs.Declaration.Kinds
import Ambient.Proofs.Comment
import Ambient.Proofs.TypeExpr.Replacement
import Ambient.Proofs.Description.Optional
import Ambient.Proofs.TypeExpr.Dialect
import Ambient.Proofs.Signature.Separation
import Ambient.Proofs.Signature.ParameterNames
import Ambient.Proofs.Declaration.Header
import Ambient.Proofs.Synthesis.Enumeration
import Ambient.Proofs.Declaration.Alias
import Ambient.Proofs.Prose.Wrap
import Ambient.Proofs.Prose.Block
import Ambient.Proofs.Description.Body
import Ambient.Proofs.Declaration.Target
import Ambient.Proofs.Prose.CodeSpan
import Ambient.Proofs.Markdown.Tag
import Ambient.Proofs.Description.Listed
import Ambient.Proofs.Link.Check
import Ambient.Proofs.Markdown.PlainProse
import Ambient.Proofs.Description.Sample
import Ambient.Proofs.TypeExpr.Boundary
import Ambient.Proofs.TypeExpr.Cursor
import Ambient.Proofs.Declaration.InterfaceNames
import Ambient.Proofs.Synthesis.Rendering
