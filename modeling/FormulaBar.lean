import FormulaBar.Main
import FormulaBar.Proofs.Expr.Grammar
import FormulaBar.Proofs.Expr.Calls
import FormulaBar.Proofs.Expr.Limit
import FormulaBar.Proofs.Expr.Scanner
import FormulaBar.Proofs.Number.Bits
import FormulaBar.Proofs.Number.Rounding
import FormulaBar.Proofs.Number.Sign
import FormulaBar.Proofs.Formula.Lexing
import FormulaBar.Proofs.Formula.Spelling
import FormulaBar.Proofs.Formula.Hygiene
import FormulaBar.Proofs.Token.EditText
import FormulaBar.Proofs.Formula.Shown
import FormulaBar.Proofs.Token.Loads
import FormulaBar.Proofs.Editor.Inputs
import FormulaBar.Proofs.Editor.Typing
import FormulaBar.Proofs.Editor.Reachable
import FormulaBar.Proofs.Editor.Settled
import FormulaBar.Proofs.Editor.Changes
import FormulaBar.Proofs.Editor.Load
import FormulaBar.Proofs.Editor.Frame
import FormulaBar.Proofs.Editor.FreshIds
import FormulaBar.Proofs.Editor.Undo
import FormulaBar.Proofs.Editor.Pasting
import FormulaBar.Proofs.Editor.OnScreen
import FormulaBar.Proofs.Editor.Query
import FormulaBar.Proofs.Editor.Accept
import FormulaBar.Proofs.Editor.Erasing
import FormulaBar.Proofs.Suggestion.Matching
import FormulaBar.Proofs.Catalog.Values
import FormulaBar.Proofs.Store.Log
import FormulaBar.Proofs.Editor.Workbook
import FormulaBar.Proofs.Editor.Surface
import FormulaBar.Proofs.Editor.Navigation
import FormulaBar.Proofs.Session.History
import FormulaBar.Proofs.Session.Timing
import FormulaBar.Proofs.Session.Export
import FormulaBar.Proofs.Session.Trailing
import FormulaBar.Proofs.Json.ReadBack
import FormulaBar.Proofs.Json.LineBreaks
import FormulaBar.Proofs.Settings.Comments
import FormulaBar.Proofs.Token.Exchange
import FormulaBar.Proofs.CommandLine.Pipeline
import FormulaBar.Proofs.Script.Faults
import FormulaBar.Proofs.Number.Closest
import FormulaBar.Proofs.Number.Literals
import FormulaBar.Proofs.Expr.Pieces
import FormulaBar.Proofs.Expr.Parts
import FormulaBar.Proofs.Expr.Progress
