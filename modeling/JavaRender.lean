import JavaRender.Emitter.Session
import JavaRender.Files.Store
import JavaRender.Main
import JavaRender.Tree.Walk
import JavaRender.Proofs.Emission.Event
import JavaRender.Proofs.Emission.Note
import JavaRender.Proofs.Emission.Visit
import JavaRender.Proofs.Emission.Refusal
import JavaRender.Proofs.Emission.Depth
import JavaRender.Proofs.Typed.Syntax
import JavaRender.Proofs.Typed.Text
import JavaRender.Proofs.Scan.Scanner
import JavaRender.Proofs.Layout.Outline
import JavaRender.Proofs.Emission.Print
import JavaRender.Proofs.Layout.Statements
import JavaRender.Proofs.Layout.Refinement
import JavaRender.Proofs.Scan.Literal
import JavaRender.Proofs.Scan.Expression
import JavaRender.Proofs.Scan.Nesting
import JavaRender.Proofs.Scan.Discipline
import JavaRender.Proofs.Decoding.Name
import JavaRender.Proofs.Decoding.Phrase
import JavaRender.Proofs.Decoding.Sentence
import JavaRender.Proofs.Decoding.Body
import JavaRender.Proofs.Decoding.Structure
import JavaRender.Proofs.Decoding.Matching
import JavaRender.Proofs.Decoding.Grouping
import JavaRender.Proofs.Typed.Sorts
import JavaRender.Proofs.Emission.Cut
import JavaRender.Proofs.Emission.Decision
import JavaRender.Proofs.Emission.Operand
import JavaRender.Proofs.Emission.Construct
import JavaRender.Proofs.Placement.Sorts
import JavaRender.Proofs.Placement.Rendering
import JavaRender.Proofs.Json.Numeral
import JavaRender.Proofs.Json.Range
import JavaRender.Proofs.Placement.Compiled
import JavaRender.Proofs.Hollow.Gaps
import JavaRender.Proofs.Hollow.Expressions
import JavaRender.Proofs.Hollow.Programs
import JavaRender.Proofs.Typed.Walk
import JavaRender.Proofs.Tokens.Reader
import JavaRender.Proofs.Tokens.Order
import JavaRender.Proofs.Number.Reading
import JavaRender.Proofs.Interchange.Writer
import JavaRender.Proofs.Interchange.Reload
import JavaRender.Proofs.Interchange.Coverage
import JavaRender.Proofs.Placement.Acceptance
import JavaRender.Proofs.Text.Encoding
import JavaRender.Proofs.Text.Points
import JavaRender.Proofs.Text.Terminator
import JavaRender.Proofs.Text.Lines
import JavaRender.Proofs.Json.Strings
import JavaRender.Proofs.Json.Folding
import JavaRender.Proofs.Files.Written
import JavaRender.Proofs.Files.Growth
import JavaRender.Proofs.Build.Run
import JavaRender.Proofs.Build.Agreement
import JavaRender.Proofs.Decoding.Form
import JavaRender.Proofs.Emission.Halt
import JavaRender.Proofs.Lacking.Spot
import JavaRender.Proofs.Lacking.Statements
import JavaRender.Proofs.Lacking.Programs
import JavaRender.Proofs.Files.Obstacle
import JavaRender.Proofs.CommandLine.Choice
import JavaRender.Proofs.Settings.Typing
import JavaRender.Proofs.Program.Settled
import JavaRender.Proofs.Program.Files
import JavaRender.Proofs.Program.Cause
import JavaRender.Proofs.Program.Ending
import JavaRender.Proofs.Lexical.Translation
import JavaRender.Proofs.Lexical.StringLiteral
import JavaRender.Proofs.Json.Written
import JavaRender.Proofs.Number.Layout
import JavaRender.Proofs.Json.Object
import JavaRender.Proofs.Literal.Document
import JavaRender.Proofs.Literal.Number
import JavaRender.Proofs.Literal.Spelling
import JavaRender.Proofs.Lexical.CharacterLiteral
import JavaRender.Proofs.Loading.Shape
import JavaRender.Proofs.Loading.Origin
import JavaRender.Proofs.Loading.Path
import JavaRender.Proofs.Loading.Agreement
import JavaRender.Proofs.Loading.Change
import JavaRender.Proofs.Text.OneLine
import JavaRender.Proofs.Emission.Names
import JavaRender.Proofs.Emission.LineEnd
import JavaRender.Proofs.Emission.Terminator
import JavaRender.Proofs.Naming.Blank
import JavaRender.Proofs.Naming.Emission
import JavaRender.Proofs.Layout.Notices
import JavaRender.Proofs.Settings.Taking
import JavaRender.Proofs.Program.Loaded
import JavaRender.Proofs.Program.Configure
import JavaRender.Proofs.Log.Alignment
