import FormulaBar.Expr.Lexeme
import FormulaBar.Number

/-!
# FormulaBar.Expr.Parser — from lexemes to an expression

Sums and differences bind loosest and group to the left, then products and quotients, then signs, then powers, which
group to the right and whose exponent may have a sign of its own: `-2^2` is `-(2^2)`. Each reader takes an expression
off the front of a row of lexemes and gives the rest, which is shorter. Signs, exponents and parentheses lead one level
deeper, and `signed` refuses to go below the limit; without a limit it never refuses.
-/

namespace FormulaBar

/-- Why a row of lexemes does not start with an expression. The place is the number of lexemes left there. -/
inductive SyntaxError
  | unexpectedEnd
  | unexpectedToken (left : Nat)
  | missingClosingParen
  | tooDeep
deriving DecidableEq, Repr

namespace SyntaxError

/-- The same error in a row of `count` lexemes, with the place counted from the start. -/
def inRow (count : Nat) : SyntaxError → EvalError
  | unexpectedEnd => .unexpectedEnd
  | unexpectedToken left => .unexpectedToken (count - left)
  | missingClosingParen => .missingClosingParen
  | tooDeep => .tooDeep

end SyntaxError

namespace Lexeme

/-- Sums and differences. -/
def additive? : Lexeme → Option BinaryOp
  | plus => some .add
  | minus => some .sub
  | _ => none

/-- Products and quotients. -/
def multiplicative? : Lexeme → Option BinaryOp
  | star => some .mul
  | slash => some .div
  | _ => none

theorem additive?_eq_some_iff {t : Lexeme} {op : BinaryOp} :
    t.additive? = some op ↔ t = plus ∧ op = .add ∨ t = minus ∧ op = .sub := by
  cases t <;> cases op <;> simp [additive?]

theorem multiplicative?_eq_some_iff {t : Lexeme} {op : BinaryOp} :
    t.multiplicative? = some op ↔ t = star ∧ op = .mul ∨ t = slash ∧ op = .div := by
  cases t <;> cases op <;> simp [multiplicative?]

end Lexeme

namespace Parser

/-- An expression read off the front of `ts`, with the rest. -/
structure Front (ts : List Lexeme) where
  expr : Expr
  rest : List Lexeme
  shorter : rest.length < ts.length

/-- An expression continued over the front of `ts`, with the rest. -/
structure Continuation (ts : List Lexeme) where
  expr : Expr
  rest : List Lexeme
  notLonger : rest.length ≤ ts.length

/-- Signs may not be read below the limit. -/
def isTooDeep (limit : Option Nat) (depth : Nat) : Bool :=
  match limit with
  | some n => n < depth
  | none => false

mutual

/-- Products joined by `+` and `-`. -/
def sum (limit : Option Nat) (depth : Nat) (ts : List Lexeme) : Except SyntaxError (Front ts) :=
  match product limit depth ts with
  | .error e => .error e
  | .ok ⟨left, rest, h⟩ =>
    match sumTail limit depth left rest with
    | .error e => .error e
    | .ok ⟨e, rest', h'⟩ => .ok ⟨e, rest', Nat.lt_of_le_of_lt h' h⟩
termination_by 7 * ts.length + 6

/-- Adds the products that follow to a sum. -/
def sumTail (limit : Option Nat) (depth : Nat) (left : Expr) (ts : List Lexeme) :
    Except SyntaxError (Continuation ts) :=
  match ts with
  | [] => .ok ⟨left, [], Nat.le_refl _⟩
  | t :: ts =>
    match t.additive? with
    | none => .ok ⟨left, t :: ts, Nat.le_refl _⟩
    | some op =>
      match product limit depth ts with
      | .error e => .error e
      | .ok ⟨right, rest, h⟩ =>
        match sumTail limit depth (.binary op left right) rest with
        | .error e => .error e
        | .ok ⟨e, rest', h'⟩ => .ok ⟨e, rest', Nat.le_trans h' (Nat.le_succ_of_le (Nat.le_of_lt h))⟩
termination_by 7 * ts.length + 5

/-- Signed powers joined by `*` and `/`. -/
def product (limit : Option Nat) (depth : Nat) (ts : List Lexeme) : Except SyntaxError (Front ts) :=
  match signed limit depth ts with
  | .error e => .error e
  | .ok ⟨left, rest, h⟩ =>
    match productTail limit depth left rest with
    | .error e => .error e
    | .ok ⟨e, rest', h'⟩ => .ok ⟨e, rest', Nat.lt_of_le_of_lt h' h⟩
termination_by 7 * ts.length + 4

/-- Multiplies a product by the signed powers that follow. -/
def productTail (limit : Option Nat) (depth : Nat) (left : Expr) (ts : List Lexeme) :
    Except SyntaxError (Continuation ts) :=
  match ts with
  | [] => .ok ⟨left, [], Nat.le_refl _⟩
  | t :: ts =>
    match t.multiplicative? with
    | none => .ok ⟨left, t :: ts, Nat.le_refl _⟩
    | some op =>
      match signed limit depth ts with
      | .error e => .error e
      | .ok ⟨right, rest, h⟩ =>
        match productTail limit depth (.binary op left right) rest with
        | .error e => .error e
        | .ok ⟨e, rest', h'⟩ => .ok ⟨e, rest', Nat.le_trans h' (Nat.le_succ_of_le (Nat.le_of_lt h))⟩
termination_by 7 * ts.length + 3

/-- A power behind any number of signs. A plus sign leaves nothing in the expression. -/
def signed (limit : Option Nat) (depth : Nat) (ts : List Lexeme) : Except SyntaxError (Front ts) :=
  if isTooDeep limit depth then .error .tooDeep
  else
    match ts with
    | .plus :: ts =>
      match signed limit (depth + 1) ts with
      | .error e => .error e
      | .ok ⟨e, rest, h⟩ => .ok ⟨e, rest, Nat.lt_succ_of_lt h⟩
    | .minus :: ts =>
      match signed limit (depth + 1) ts with
      | .error e => .error e
      | .ok ⟨e, rest, h⟩ => .ok ⟨.neg e, rest, Nat.lt_succ_of_lt h⟩
    | ts => power limit depth ts
termination_by 7 * ts.length + 2

/-- An atom, and its exponent if it has one. -/
def power (limit : Option Nat) (depth : Nat) (ts : List Lexeme) : Except SyntaxError (Front ts) :=
  match atom limit depth ts with
  | .error e => .error e
  | .ok base =>
    match hr : base.rest with
    | .caret :: rest =>
      have hs : rest.length < ts.length := by have := base.shorter; rw [hr] at this; exact Nat.lt_of_succ_lt this
      match signed limit (depth + 1) rest with
      | .error e => .error e
      | .ok ⟨exponent, rest', h⟩ => .ok ⟨.binary .pow base.expr exponent, rest', Nat.lt_trans h hs⟩
    | _ => .ok base
termination_by 7 * ts.length + 1

/-- A number, or a sum between parentheses. -/
def atom (limit : Option Nat) (depth : Nat) (ts : List Lexeme) : Except SyntaxError (Front ts) :=
  match ts with
  | [] => .error .unexpectedEnd
  | .number value :: ts => .ok ⟨.number value, ts, Nat.lt_succ_self _⟩
  | .leftParen :: ts =>
    match sum limit (depth + 1) ts with
    | .error e => .error e
    | .ok inner =>
      match hr : inner.rest with
      | [] => .error .missingClosingParen
      | .rightParen :: rest =>
        .ok ⟨inner.expr, rest, by have := inner.shorter; simp only [hr, List.length_cons] at this ⊢; omega⟩
      | t :: rest => .error (.unexpectedToken (t :: rest).length)
  | t :: ts => .error (.unexpectedToken (t :: ts).length)
termination_by 7 * ts.length

end

end Parser

namespace Expr

/-- What is wrong with lexemes left over after an expression. -/
def leftOver (position : Nat) : Lexeme → EvalError
  | .rightParen => .unexpectedToken position
  | _ => .trailingInput position

/-- The expression that a whole row of lexemes is. -/
def ofLexemes (limit : Option Nat) (ts : List Lexeme) : Except EvalError Expr :=
  if ts.isEmpty then .error .empty
  else if maxLexemes < ts.length then .error (.tooLong ts.length)
  else
    match Parser.sum limit 0 ts with
    | .error e => .error (e.inRow ts.length)
    | .ok ⟨e, [], _⟩ => .ok e
    | .ok ⟨_, t :: rest, _⟩ => .error (leftOver (ts.length - (t :: rest).length) t)

/-- The expression that a text is. -/
def ofChars (cs : List Char) : Except EvalError Expr := do
  ofLexemes (some maxDepth) (← Lexeme.ofChars cs)

/-- The expression as text, each operation between parentheses and in front of its operands. -/
def outline : Expr → String
  | number value => Number.text value
  | neg operand => "(neg " ++ operand.outline ++ ")"
  | binary op left right => "(" ++ op.symbol.toString ++ " " ++ left.outline ++ " " ++ right.outline ++ ")"

end Expr

end FormulaBar
