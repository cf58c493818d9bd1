import SheetScript.Text.Blank
import SheetScript.Text.Alphanumeric
import SheetScript.Text.Quoted
import SheetScript.Number.Format
import SheetScript.Number.Read
import SheetScript.CellRef
import SheetScript.Formula.Infix
import SheetScript.Formula.Render
import SheetScript.Formula.Value
import SheetScript.Grid
import SheetScript.Document.History
import SheetScript.Document.Values
import SheetScript.Script.WordList
import SheetScript.Script.Registry
import SheetScript.Script.Frame
import SheetScript.Arithmetic.Evaluate
import SheetScript.Script.Procedure
import SheetScript.Script.Evaluate
import SheetScript.Script.Journal
import SheetScript.Session.Basic
import SheetScript.Main
import SheetScript.Proofs.Grid.Graph
import SheetScript.Proofs.Grid.Search
import SheetScript.Proofs.Formula.Inquiry
import SheetScript.Proofs.Formula.Agreement
import SheetScript.Proofs.Document.Run
import SheetScript.Proofs.Grid.Sound
import SheetScript.Proofs.Document.History
import SheetScript.Proofs.Document.Dependents
import SheetScript.Proofs.Grid.Valuation
import SheetScript.Proofs.Document.Values
import SheetScript.Proofs.Number.Bits
import SheetScript.Proofs.Number.Nearest
import SheetScript.Proofs.Number.Numeral
import SheetScript.Proofs.CellRef
import SheetScript.Proofs.Formula.Tree
import SheetScript.Proofs.Formula.Lexeme
import SheetScript.Proofs.Formula.Writing
import SheetScript.Proofs.Formula.Reading
import SheetScript.Proofs.Formula.RoundTrip
import SheetScript.Proofs.Formula.Operand
import SheetScript.Proofs.Rectangle
import SheetScript.Proofs.Formula.TreeValue
import SheetScript.Proofs.Script.Matching
import SheetScript.Proofs.Script.Rounds
import SheetScript.Proofs.Script.WordList
import SheetScript.Proofs.Script.ListCommand
import SheetScript.Proofs.Arithmetic.Grammar
import SheetScript.Proofs.Script.Frames
import SheetScript.Proofs.Arithmetic.Evaluation
import SheetScript.Proofs.Formula.Grammar
import SheetScript.Proofs.Script.Registry
import SheetScript.Proofs.Script.Joined
import SheetScript.Proofs.Script.Sequence
import SheetScript.Proofs.Script.Termination
import SheetScript.Proofs.Document.Loading
import SheetScript.Proofs.Formula.Accepted
import SheetScript.Proofs.Formula.WrittenBack
import SheetScript.Proofs.Formula.Placement
import SheetScript.Proofs.Formula.InStep
import SheetScript.Proofs.Document.Store
import SheetScript.Proofs.Document.Chain
import SheetScript.Proofs.Document.Reading
import SheetScript.Proofs.Document.Typing
import SheetScript.Proofs.Content
import SheetScript.Proofs.Formula.Spacing
import SheetScript.Proofs.Formula.EqualsSign
import SheetScript.Proofs.Formula.Offence
import SheetScript.Proofs.Arithmetic.Spaced
import SheetScript.Proofs.Script.Substitution
import SheetScript.Proofs.Script.Expression
import SheetScript.Proofs.Script.Reference
import SheetScript.Proofs.Script.Binding
import SheetScript.Proofs.Session.Failure
import SheetScript.Proofs.Script.Conditional
import SheetScript.Proofs.Text.Slice
import SheetScript.Proofs.Script.Braces
import SheetScript.Proofs.Script.Reader
import SheetScript.Proofs.Script.Counting
import SheetScript.Proofs.Script.Positions
import SheetScript.Proofs.Formula.Scanner
import SheetScript.Proofs.Formula.Partition
import SheetScript.Proofs.Session.Cursor
