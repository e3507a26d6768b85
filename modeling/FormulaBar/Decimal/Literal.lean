import FormulaBar.Decimal.Basic

/-!
# FormulaBar.Decimal.Literal — reading decimal literals

A literal is an optional sign, digits with at most one point and at least one digit, and an optional power of ten:
`[+-]? (digits [. digits?] | . digits) ([eE] [+-]? digits)?`. Digits are the ten of ASCII.
-/

namespace FormulaBar.Decimal

/-- The value of a digit. -/
def digitValue (c : Char) : Nat := c.toNat - '0'.toNat

/-- The number a run of digits denotes. -/
def natOfDigits (ds : List Char) : Nat := ds.foldl (fun n c => 10 * n + digitValue c) 0

/-- A leading sign, and what follows it. -/
def splitSign : List Char → Bool × List Char
  | '-' :: cs => (true, cs)
  | '+' :: cs => (false, cs)
  | cs => (false, cs)

theorem splitSign_length (cs : List Char) : (splitSign cs).2.length ≤ cs.length := by
  unfold splitSign
  split <;> simp

/-- The whole part, the fraction and what follows them. -/
def splitMantissa (cs : List Char) : List Char × List Char × List Char :=
  let whole := cs.takeWhile Char.isDigit
  match cs.dropWhile Char.isDigit with
  | '.' :: rest => (whole, rest.takeWhile Char.isDigit, rest.dropWhile Char.isDigit)
  | rest => (whole, [], rest)

/-- Powers of ten are read up to their first digit that brings them to `exponentBound` or beyond; later digits are
not counted. Every literal of fewer characters than that is decided before: it is zero, infinite or tiny. -/
def exponentBound : Nat := 65536

/-- The number of a power of ten. -/
def exponentOfDigits (ds : List Char) : Nat :=
  ds.foldl (fun n c => if n < exponentBound then 10 * n + digitValue c else n) 0

/-- The power of ten that ends a literal: nothing, or a mark with a whole number. -/
def readExponent : List Char → Option Int
  | [] => some 0
  | c :: cs =>
    if c = 'e' ∨ c = 'E' then
      let (negative, ds) := splitSign cs
      if ds ≠ [] ∧ ds.all Char.isDigit then
        let n : Int := exponentOfDigits ds
        some (if negative then -n else n)
      else none
    else none

/-- Reads a text that is entirely a literal. -/
def ofLiteral? (cs : List Char) : Option Decimal :=
  let (negative, unsigned) := splitSign cs
  let (whole, fraction, rest) := splitMantissa unsigned
  if whole = [] ∧ fraction = [] then none
  else (readExponent rest).map fun e =>
    { negative, coefficient := natOfDigits (whole ++ fraction), exponent := e - fraction.length }

end FormulaBar.Decimal
