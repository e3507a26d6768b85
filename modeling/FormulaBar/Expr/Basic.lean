import FormulaBar.Binary64
import FormulaBar.Text.Quoted

/-!
# FormulaBar.Expr.Basic — expressions and their values

An expression is built from numbers, negation and the five binary operations on doubles. Its value is computed from the
leaves up, and every value on the way has to be finite: an infinity or NaN ends the evaluation, whatever the operation
above it would make of it. `EvalError` lists all that can be wrong with an expression's text or value.
-/

namespace FormulaBar

/-- The operations on two numbers. -/
inductive BinaryOp
  | add
  | sub
  | mul
  | div
  | pow
deriving DecidableEq, Repr

namespace BinaryOp

/-- The character that shows an operation. -/
def symbol : BinaryOp → Char
  | add => '+'
  | sub => '-'
  | mul => '*'
  | div => '/'
  | pow => '^'

/-- The operation on doubles. -/
def apply : BinaryOp → Float → Float → Float
  | add, x, y => x + y
  | sub, x, y => x - y
  | mul, x, y => x * y
  | div, x, y => x / y
  | pow, x, y => Float.pow x y

end BinaryOp

/-- An arithmetic expression. -/
inductive Expr
  | number (value : Float)
  | neg (operand : Expr)
  | binary (op : BinaryOp) (left right : Expr)

/-- The deepest nesting of parentheses, signs and exponents in an expression. -/
def maxDepth : Nat := 256

/-- The greatest number of lexemes in an expression. -/
def maxLexemes : Nat := 4096

/-- Why an expression has no value. Positions count lexemes from 0. -/
inductive EvalError
  | empty
  | unexpectedCharacter (c : Char)
  | invalidNumber (text : String)
  | unexpectedEnd
  | unexpectedToken (position : Nat)
  | missingClosingParen
  | trailingInput (position : Nat)
  | nonFinite
  | tooDeep
  | tooLong (count : Nat)
deriving DecidableEq, Repr

namespace EvalError

/-- The text of an error. -/
def message : EvalError → String
  | empty => "empty expression"
  | unexpectedCharacter c => "unexpected character: " ++ Text.quotedChar c
  | invalidNumber text => "invalid number: " ++ text
  | unexpectedEnd => "unexpected end of expression"
  | unexpectedToken position => "unexpected token at position " ++ toString position
  | missingClosingParen => "missing closing parenthesis"
  | trailingInput position => "unexpected input after position " ++ toString position
  | nonFinite => "result is not a finite number"
  | tooDeep => "expression nested deeper than " ++ toString maxDepth ++ " levels"
  | tooLong count => "expression has " ++ toString count ++ " tokens, limit is " ++ toString maxLexemes

end EvalError

namespace Expr

/-- A value that may be passed on. -/
def finite (value : Float) : Except EvalError Float :=
  if Binary64.isFinite value then .ok value else .error .nonFinite

/-- The value of an expression all of whose parts have finite values. -/
def eval : Expr → Except EvalError Float
  | number value => finite value
  | neg operand => do finite (-(← operand.eval))
  | binary op left right => do
    let x ← left.eval
    let y ← right.eval
    finite (op.apply x y)

end Expr

end FormulaBar
