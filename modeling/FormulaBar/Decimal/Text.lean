import FormulaBar.Decimal.Shortest

/-!
# FormulaBar.Decimal.Text — decimals written out

Two notations for `n * 10 ^ e`: `positional` puts zeros and a point in place, and `scientific` writes one digit before
the point and a power of ten with its sign.
-/

namespace FormulaBar.Decimal

/-- The digits of a whole number. -/
def digits (n : Nat) : List Char := Nat.toDigits 10 n

/-- The digits of `n * 10 ^ e` with zeros and a point in place, and no point when no digit follows it. -/
def positional (n : Nat) (e : Int) : List Char :=
  match e with
  | .ofNat zeros => digits n ++ List.replicate zeros '0'
  | .negSucc k =>
    let padded := List.replicate (k + 2 - (digits n).length) '0' ++ digits n
    let whole := padded.length - (k + 1)
    padded.take whole ++ '.' :: padded.drop whole

/-- The power of ten of the first digit of `n * 10 ^ e`. -/
def leadingPower (n : Nat) (e : Int) : Int := (digits n).length - 1 + e

/-- The digits of `n * 10 ^ e` with one of them before the point, and the power of ten. -/
def scientific (n : Nat) (e : Int) : List Char :=
  let power := leadingPower n e
  let mantissa := match digits n with
    | first :: second :: rest => first :: '.' :: second :: rest
    | short => short
  mantissa ++ 'e' :: (if power < 0 then '-' else '+') :: digits power.natAbs

end FormulaBar.Decimal
