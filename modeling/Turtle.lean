import Turtle.Block
import Turtle.CommandLine.Arguments
import Turtle.CommandLine.Disk
import Turtle.CommandLine.Run
import Turtle.Compile.Comment
import Turtle.Compile.Compiler
import Turtle.Compile.Error
import Turtle.Compile.Index
import Turtle.Compile.Options
import Turtle.Compile.Pass
import Turtle.Compile.Recipe
import Turtle.Compile.Session
import Turtle.Emitter.Arithmetic
import Turtle.Emitter.Control
import Turtle.Emitter.Drawing
import Turtle.Emitter.Procedure
import Turtle.Emitter.Sequence
import Turtle.Emitter.Standard
import Turtle.Emitter.Truth
import Turtle.Emitter.Variable
import Turtle.Identifier.Legal
import Turtle.Identifier.Names
import Turtle.Json.Numeral
import Turtle.Json.Printer
import Turtle.Json.Reader
import Turtle.Json.Token
import Turtle.Json.Value
import Turtle.Logo.Order
import Turtle.Logo.Primitive
import Turtle.Logo.Word
import Turtle.Main
import Turtle.Number.Binary64
import Turtle.Number.Decimal
import Turtle.Number.Reader
import Turtle.Path
import Turtle.Proofs.Block
import Turtle.Proofs.Compile.Body
import Turtle.Proofs.Compile.Bracket
import Turtle.Proofs.Compile.Cause
import Turtle.Proofs.Compile.Chain
import Turtle.Proofs.Compile.Commented
import Turtle.Proofs.Compile.Declared
import Turtle.Proofs.Compile.Definitions
import Turtle.Proofs.Compile.Emitted
import Turtle.Proofs.Compile.Firing
import Turtle.Proofs.Compile.Fold
import Turtle.Proofs.Compile.Following
import Turtle.Proofs.Compile.Foreign
import Turtle.Proofs.Compile.Gather
import Turtle.Proofs.Compile.Gist
import Turtle.Proofs.Compile.Guarded
import Turtle.Proofs.Compile.Heading
import Turtle.Proofs.Compile.Hushed
import Turtle.Proofs.Compile.Ignored
import Turtle.Proofs.Compile.Instrument
import Turtle.Proofs.Compile.Interference
import Turtle.Proofs.Compile.Layout
import Turtle.Proofs.Compile.Matching
import Turtle.Proofs.Compile.Nesting
import Turtle.Proofs.Compile.Outcome
import Turtle.Proofs.Compile.Placement
import Turtle.Proofs.Compile.Print
import Turtle.Proofs.Compile.Program
import Turtle.Proofs.Compile.Prune
import Turtle.Proofs.Compile.Reference
import Turtle.Proofs.Compile.Registration
import Turtle.Proofs.Compile.Remark
import Turtle.Proofs.Compile.Session
import Turtle.Proofs.Compile.Slots
import Turtle.Proofs.Compile.Snippet
import Turtle.Proofs.Compile.Texture
import Turtle.Proofs.Compile.TopBlock
import Turtle.Proofs.Compile.TopBlocks
import Turtle.Proofs.Compile.Trace
import Turtle.Proofs.Compile.Tracking
import Turtle.Proofs.Compile.Transparent
import Turtle.Proofs.Compile.Uncommented
import Turtle.Proofs.Compile.Vocabulary
import Turtle.Proofs.Emitter.Agreement
import Turtle.Proofs.Emitter.Blame
import Turtle.Proofs.Emitter.Bracket
import Turtle.Proofs.Emitter.Colour
import Turtle.Proofs.Emitter.Contract
import Turtle.Proofs.Emitter.Flat
import Turtle.Proofs.Emitter.Formula
import Turtle.Proofs.Emitter.Growth
import Turtle.Proofs.Emitter.Position
import Turtle.Proofs.Emitter.Procedure
import Turtle.Proofs.Emitter.Slot
import Turtle.Proofs.Emitter.Spelling
import Turtle.Proofs.Emitter.Standard
import Turtle.Proofs.Identifier.Legal
import Turtle.Proofs.Identifier.Search
import Turtle.Proofs.Identifier.Session
import Turtle.Proofs.Identifier.Trial
import Turtle.Proofs.Identifier.Uri
import Turtle.Proofs.Json.Finite
import Turtle.Proofs.Logo.Expression
import Turtle.Proofs.Logo.Literal
import Turtle.Proofs.Logo.Printing
import Turtle.Proofs.Logo.Reading
import Turtle.Proofs.Logo.Tokens
import Turtle.Proofs.Logo.Word
import Turtle.Proofs.Number.Characters
import Turtle.Proofs.Number.Finite
import Turtle.Proofs.Number.Literal
import Turtle.Proofs.Number.Sign
import Turtle.Proofs.Text.Ascii
import Turtle.Proofs.Text.Bracket
import Turtle.Proofs.Text.Case
import Turtle.Proofs.Text.Guarded
import Turtle.Proofs.Text.Indent
import Turtle.Proofs.Text.Lines
import Turtle.Proofs.Text.Normal
import Turtle.Proofs.Text.Replace
import Turtle.Proofs.Text.Texture
import Turtle.Proofs.Text.Tidy
import Turtle.Proofs.Text.Trim
import Turtle.Proofs.Text.Weave
import Turtle.Proofs.Text.Words
import Turtle.Proofs.Text.Wrap
import Turtle.Proofs.Workspace.Acceptance
import Turtle.Proofs.Workspace.Comparison
import Turtle.Proofs.Workspace.Mirror
import Turtle.Proofs.Workspace.Order
import Turtle.Proofs.Workspace.Shape
import Turtle.Proofs.Workspace.Sorting
import Turtle.Proofs.Xml.Plain
import Turtle.Table
import Turtle.Text.Blank
import Turtle.Text.Case
import Turtle.Text.Case.Table
import Turtle.Text.Digit
import Turtle.Text.Lines
import Turtle.Text.Replace
import Turtle.Text.Tidy
import Turtle.Text.Wrap
import Turtle.Workspace
import Turtle.Workspace.Format
import Turtle.Workspace.LoadError
import Turtle.Workspace.OfJson
import Turtle.Workspace.OfXml
import Turtle.Xml.Attribute
import Turtle.Xml.Character
import Turtle.Xml.Declaration
import Turtle.Xml.Doctype
import Turtle.Xml.Document
import Turtle.Xml.Element
import Turtle.Xml.Name
import Turtle.Xml.Reference
import Turtle.Xml.Token
import Turtle.Xml.Token.Context
import Turtle.Xml.Unread
