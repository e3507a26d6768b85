/-!
# FormulaBar.Operator — the operator and parenthesis characters

The seven characters that stand for themselves in a formula and end whatever was being typed before them.
-/

namespace FormulaBar

/-- An operator or a parenthesis. -/
inductive Operator
  | add
  | sub
  | mul
  | div
  | pow
  | leftParen
  | rightParen
deriving DecidableEq, Repr

namespace Operator

/-- All of them, in their usual order. -/
def all : List Operator := [add, sub, mul, div, pow, leftParen, rightParen]

/-- The character that shows an operator. -/
def symbol : Operator → Char
  | add => '+'
  | sub => '-'
  | mul => '*'
  | div => '/'
  | pow => '^'
  | leftParen => '('
  | rightParen => ')'

/-- The operator that a character shows. -/
def ofChar? : Char → Option Operator
  | '+' => some add
  | '-' => some sub
  | '*' => some mul
  | '/' => some div
  | '^' => some pow
  | '(' => some leftParen
  | ')' => some rightParen
  | _ => none

/-- The operator that a text of one character shows. -/
def ofChars? : List Char → Option Operator
  | [c] => ofChar? c
  | _ => none

@[simp] theorem ofChar?_symbol (op : Operator) : ofChar? op.symbol = some op := by
  cases op <;> rfl

theorem symbol_of_ofChar? {c : Char} {op : Operator} (h : ofChar? c = some op) : op.symbol = c := by
  unfold ofChar? at h
  split at h <;> cases h <;> rfl

theorem mem_all (op : Operator) : op ∈ all := by
  cases op <;> decide

end Operator

end FormulaBar
