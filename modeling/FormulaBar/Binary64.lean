/-!
# FormulaBar.Binary64 — doubles as whole numbers of a smallest unit

A nonnegative finite double is a whole number of units of `2 ^ -1074`. `units` reads that number off the bits
and `nearest` goes back: it rounds a fraction to the closest double, a tie to the one with even last bit. Signs are
kept apart, so both speak of magnitudes: the low 63 bits.
-/

namespace FormulaBar.Binary64

/-- A power of two. -/
def twoTo (k : Nat) : Nat := Nat.pow 2 k

/-- Number of units in one. -/
def unitsPerOne : Nat := twoTo 1074

/-- The sign bit: the highest of the sixty-four. -/
def signBit : Nat := 0x8000000000000000

/-- The place of the exponent, above fifty-two bits of fraction. -/
def exponentUnit : Nat := 0x10000000000000

/-- The magnitude of infinity: the least bit pattern that is no finite double. -/
def infinity : Nat := 0x7ff0000000000000

/-- The magnitude of NaN as it is written here: no number, above infinity. -/
def nan : Nat := 0x7ff8000000000000

/-- The magnitude of a double: its bits without the sign. -/
def magnitude (x : Float) : Nat := x.toBits.toNat % signBit

/-- The sign bit is set. -/
def isNegative (x : Float) : Bool := signBit ≤ x.toBits.toNat

/-- The double with this sign and magnitude. -/
def ofMagnitude (negative : Bool) (bits : Nat) : Float :=
  Float.ofBits (UInt64.ofNat (if negative then signBit + bits else bits))

/-- Neither infinite nor NaN. -/
def isFinite (x : Float) : Bool := magnitude x < infinity

/-- The value of a finite magnitude, in units of `2 ^ -1074`. -/
def units (bits : Nat) : Nat :=
  let exponent := bits / exponentUnit
  let fraction := bits % exponentUnit
  if exponent = 0 then fraction else (exponentUnit + fraction) * twoTo (exponent - 1)

/-- `num / den` to the nearest whole number, a tie to the even one. -/
def roundEven (num den : Nat) : Nat :=
  let q := num / den
  let r := num % den
  if 2 * r < den ∨ 2 * r = den ∧ q % 2 = 0 then q else q + 1

/-- The magnitude of the double nearest to `num / den`; infinity from half a unit above the greatest one on.
The shift `s` is the least that leaves a significand of at most 53 bits, and a significand that rounds up to
`2 ^ 53` carries into the exponent by itself. -/
def nearest (num den : Nat) : Nat :=
  let scaled := num * unitsPerOne
  let s := (scaled / den).log2 - 52
  min infinity (s * exponentUnit + roundEven scaled (den * twoTo s))

end FormulaBar.Binary64
