import FormulaBar.Binary64

/-!
# FormulaBar.Decimal.Basic — decimal numbers

A decimal is a sign, a whole coefficient and a power of ten. `toFloat` is the double nearest to it.
-/

namespace FormulaBar

/-- The number `± coefficient * 10 ^ exponent`. -/
structure Decimal where
  negative : Bool := false
  coefficient : Nat
  exponent : Int
deriving DecidableEq, Repr

namespace Decimal

/-- A power of ten. -/
def tenTo (k : Nat) : Nat := Nat.pow 10 k

theorem tenTo_succ (k : Nat) : tenTo (k + 1) = tenTo k * 10 := rfl

theorem tenTo_pos (k : Nat) : 0 < tenTo k := Nat.pow_pos (by decide)

/-- The magnitude of the nearest double. -/
def magnitude (d : Decimal) : Nat :=
  Binary64.nearest (d.coefficient * tenTo d.exponent.toNat) (tenTo (-d.exponent).toNat)

/-- The nearest double; infinite when the decimal is too large. -/
def toFloat (d : Decimal) : Float := Binary64.ofMagnitude d.negative d.magnitude

/-- Moves the trailing zeros of the coefficient into the exponent. -/
def trimZeros (coefficient : Nat) (exponent : Int) : Nat × Int :=
  if h : coefficient ≠ 0 ∧ coefficient % 10 = 0 then trimZeros (coefficient / 10) (exponent + 1)
  else (coefficient, exponent)
termination_by coefficient
decreasing_by omega

end Decimal

end FormulaBar
