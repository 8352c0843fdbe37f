import LvglForest.Code.Generation
import LvglForest.Code.Generator
import LvglForest.Code.Statement
import LvglForest.Decimal.Binary64
import LvglForest.Decimal.Digits
import LvglForest.Decimal.Integer
import LvglForest.Detail
import LvglForest.Disk.Basic
import LvglForest.Disk.Encoding
import LvglForest.Disk.Path
import LvglForest.Fact.Basic
import LvglForest.Fact.Extraction
import LvglForest.Fact.Recognizer
import LvglForest.Fact.Registry
import LvglForest.Fault
import LvglForest.Forest
import LvglForest.Hierarchy.Attachment
import LvglForest.Hierarchy.Collection
import LvglForest.Hierarchy.ParsedFile
import LvglForest.Log
import LvglForest.Outline
import LvglForest.Page.Basic
import LvglForest.Page.Markup
import LvglForest.Project.Export
import LvglForest.Project.Import
import LvglForest.Project.Rendering
import LvglForest.Project.Scan
import LvglForest.Project.Subject
import LvglForest.Project.Symbol
import LvglForest.Proofs.Fact.Extraction
import LvglForest.Proofs.Forest
import LvglForest.Proofs.Hierarchy.Attachment
import LvglForest.Proofs.Hierarchy.Collection
import LvglForest.Proofs.Hierarchy.ParsedFile
import LvglForest.Proofs.Source.Arguments
import LvglForest.Proofs.Source.Literal
import LvglForest.Proofs.Source.Pattern
import LvglForest.Proofs.Text.Lines
import LvglForest.Service
import LvglForest.Service.Authority
import LvglForest.Service.Charset
import LvglForest.Service.Form
import LvglForest.Service.Framework
import LvglForest.Service.HeaderValue
import LvglForest.Service.Label
import LvglForest.Service.Multipart
import LvglForest.Service.Percent
import LvglForest.Service.Punycode
import LvglForest.Service.Request
import LvglForest.Service.Route
import LvglForest.Service.Target
import LvglForest.Source.Arguments
import LvglForest.Source.Color
import LvglForest.Source.Comment
import LvglForest.Source.Lexical
import LvglForest.Source.Literal
import LvglForest.Source.Operand
import LvglForest.Source.Pattern
import LvglForest.Table
import LvglForest.Text.Basic
import LvglForest.Text.Blank
import LvglForest.Text.Digit
import LvglForest.Text.Lines
import LvglForest.Text.Lower
import LvglForest.Text.Printable
import LvglForest.Text.Quoted
import LvglForest.Text.Ranges
import LvglForest.Text.Utf8
import LvglForest.Text.Wide
import LvglForest.Text.Word
import LvglForest.Value.Basic
import LvglForest.Value.Bytes
import LvglForest.Value.Display
import LvglForest.Value.Equal
import LvglForest.Value.Membership
import LvglForest.Value.Read
import LvglForest.Value.Shape
import LvglForest.Value.Write
import LvglForest.Widget.Anchor
import LvglForest.Widget.Basic
import LvglForest.Widget.Exchange
import LvglForest.Widget.Kind
import LvglForest.Widget.Size
import LvglForest.Widget.Style
import LvglForest.Widget.Workbench
import LvglForest.Proofs.Fact.Call
import LvglForest.Proofs.Fact.Quotation
import LvglForest.Proofs.Fact.Label
import LvglForest.Proofs.Decimal
import LvglForest.Proofs.Source.Operand
import LvglForest.Proofs.Fact.Line
import LvglForest.Proofs.Fact.Setter
import LvglForest.Proofs.Code.Statement
import LvglForest.Proofs.Code.Generation
import LvglForest.Proofs.Project.Rendering
import LvglForest.Proofs.Hierarchy.Entry
import LvglForest.Proofs.Hierarchy.Links
import LvglForest.Proofs.Project.RoundTrip
import LvglForest.Proofs.Forest.Pruning
import LvglForest.Proofs.Code.Emission
import LvglForest.Proofs.Code.Isolation
import LvglForest.Proofs.Code.Generator
import LvglForest.Proofs.Project.Definition
import LvglForest.Proofs.Project.Agreement
import LvglForest.Proofs.Project.Execution
import LvglForest.Proofs.Fact.Reader
import LvglForest.Proofs.Fact.Source
import LvglForest.Proofs.Hierarchy.Source
import LvglForest.Proofs.Project.Reexport
import LvglForest.Proofs.Disk.Path
import LvglForest.Proofs.Disk.Basic
import LvglForest.Proofs.Project.Symbol
import LvglForest.Proofs.Project.Export
import LvglForest.Proofs.Fact.Comment
import LvglForest.Proofs.Fact.Division
import LvglForest.Proofs.Forest.Reordering
import LvglForest.Proofs.Hierarchy.Order
import LvglForest.Proofs.Widget.Size
import LvglForest.Proofs.Project.Exchange
import LvglForest.Proofs.Fault
import LvglForest.Proofs.Text.MadeOf
import LvglForest.Proofs.Code.Spelling
import LvglForest.Proofs.Project.Spelling
import LvglForest.Proofs.Disk.Encoding
import LvglForest.Proofs.Disk.Refusal
import LvglForest.Proofs.Decimal.Binary64
import LvglForest.Proofs.Value.Display
import LvglForest.Proofs.Value.Read
import LvglForest.Proofs.Code.Fault
import LvglForest.Proofs.Project.Refusal
import LvglForest.Proofs.Project.Described
import LvglForest.Proofs.Project.Import
import LvglForest.Proofs.Service.Framework
import LvglForest.Proofs.Service.Reading
import LvglForest.Proofs.Service.Answer
import LvglForest.Proofs.Source.Spelling
import LvglForest.Proofs.Fact.Spelling
import LvglForest.Proofs.Hierarchy.Spelling
import LvglForest.Proofs.Outline
import LvglForest.Proofs.Page
import LvglForest.Proofs.Service.Page
import LvglForest.Proofs.Fact.Reading
import LvglForest.Proofs.Code.Commented
import LvglForest.Proofs.Hierarchy.Content
import LvglForest.Proofs.Project.Commented
import LvglForest.Proofs.Hierarchy.Latest
import LvglForest.Proofs.Hierarchy.Resolution
import LvglForest.Proofs.Disk.Confinement
import LvglForest.Proofs.Project.Confinement
import LvglForest.Proofs.Service.Confinement
import LvglForest.Proofs.Code.Name
import LvglForest.Proofs.Project.Name
import LvglForest.Proofs.Fact.Break
import LvglForest.Proofs.Source.Sequence
import LvglForest.Proofs.Source.Balanced
import LvglForest.Proofs.Fact.Priority
import LvglForest.Proofs.Project.Stability
import LvglForest.Proofs.Fact.Origin
import LvglForest.Proofs.Fact.Shortcut
import LvglForest.Proofs.Hierarchy.Setting
import LvglForest.Proofs.Code.Reread
import LvglForest.Proofs.Code.Font
import LvglForest.Proofs.Code.Numeral
import LvglForest.Proofs.Widget.Canonical
import LvglForest.Proofs.Hierarchy.Climb
import LvglForest.Proofs.Hierarchy.Declaration
import LvglForest.Proofs.Forest.Levels
import LvglForest.Proofs.Outline.Lines
import LvglForest.Proofs.Outline.Faithful
import LvglForest.Proofs.Source.Piece
import LvglForest.Proofs.Page.Tag
import LvglForest.Proofs.Page.Template
import LvglForest.Proofs.Service.Template
import LvglForest.Proofs.Disk.Below
import LvglForest.Proofs.Project.Walk
import LvglForest.Proofs.Project.Scan
import LvglForest.Proofs.Project.Sources
