import FormulaBar.Bindings
import FormulaBar.Expr.Parser
import FormulaBar.Token.Basic

/-!
# FormulaBar.Formula — the value of a row of tokens

A formula is evaluated through text: each token is written out, a tag as the value it is bound to, with one space
between neighbours, and the text is read as an expression. What is shown is the value, or a fixed phrase when there
is none.
-/

namespace FormulaBar.Formula

/-- What is shown for a formula without a value. -/
def invalid : String := "Invalid Expression"

/-- The text that a token contributes to the expression. -/
def tokenSource (b : Bindings) : TokenData → List Char
  | .number value => Number.chars value
  | .operand op => [op.symbol]
  | .tag label => Number.chars (b.resolve label)

/-- The expression's text. -/
def sourceChars (data : List TokenData) (b : Bindings) : List Char :=
  List.intercalate [' '] (data.map (tokenSource b))

/-- The expression's text as a string. -/
def source (tokens : List Token) (b : Bindings) : String :=
  String.ofList (sourceChars (tokens.map (·.data)) b)

/-- The value of a row of tokens, or why it has none. -/
def value (tokens : List Token) (b : Bindings) : Except EvalError Float := do
  (← Expr.ofChars (sourceChars (tokens.map (·.data)) b)).eval

/-- What is shown for a row of tokens; zero for the empty one. -/
def result (tokens : List Token) (b : Bindings) : String :=
  if tokens.isEmpty then Number.text 0
  else
    match value tokens b with
    | .ok x => Number.text x
    | .error _ => invalid

end FormulaBar.Formula
