import FormulaBar.Decimal.Literal
import FormulaBar.Decimal.Text

/-!
# FormulaBar.Json.Number — numbers in JSON

A number is written as a literal. A plain one that fits a word stays whole; any other is a double, read with a
significand of one word: digits that do not fit it are dropped, and the significand is multiplied or divided by a power
of ten once in every 308 places. That is quick but not always the nearest double. A literal too large for a double has
no value. A double is written with the fewest digits that read back exactly, a tie going to the even digit.
-/

namespace FormulaBar.Json

/-- A number as it is written. -/
structure NumberLiteral where
  negative : Bool
  whole : List Char
  fraction : List Char
  exponent : Option (Bool × List Char)
deriving DecidableEq, Repr

/-- A number. -/
inductive Number
  | natural (n : Nat)
  | negative (n : Nat)
  | float (x : Float)

namespace Number

/-- The double nearest to a whole number. -/
def nearest (n : Nat) : Float := Decimal.toFloat { coefficient := n, exponent := 0 }

/-- The number as a double. -/
def toFloat : Number → Float
  | natural n => nearest n
  | negative n => -nearest n
  | float x => x

end Number

namespace NumberLiteral

/-- The greatest word. -/
def greatestWord : Nat := 0xffffffffffffffff

/-- Reads digits on to `n` while the result fits a word, and gives the digits that were left. -/
def readWord (n : Nat) : List Char → Nat × List Char
  | [] => (n, [])
  | c :: cs =>
    let next := 10 * n + Decimal.digitValue c
    if next ≤ greatestWord then readWord next cs else (n, c :: cs)

theorem readWord_le {n : Nat} (h : n ≤ greatestWord) (cs : List Char) : (readWord n cs).1 ≤ greatestWord := by
  induction cs generalizing n with
  | nil => exact h
  | cons c cs ih =>
    rw [readWord]
    split
    · next hnext => exact ih hnext
    · exact h

/-- `x * 10 ^ e` in steps of at most 308 places; nothing when it is too large. -/
def scale (x : Float) (e : Int) : Option Float :=
  if e.natAbs ≤ 308 then
    if e < 0 then some (x / Number.nearest (Decimal.tenTo e.natAbs))
    else
      let y := x * Number.nearest (Decimal.tenTo e.natAbs)
      if Binary64.magnitude y = Binary64.infinity then none else some y
  else if x == 0 then some x
  else if 0 ≤ e then none
  else scale (x / Number.nearest (Decimal.tenTo 308)) (e + 308)
termination_by (-e).toNat
decreasing_by omega

/-- The power of ten that a literal names. -/
def power (l : NumberLiteral) : Int :=
  match l.exponent with
  | none => 0
  | some (negative, ds) => if negative then -(Decimal.natOfDigits ds : Int) else Decimal.natOfDigits ds

/-- The literal is a whole number written plainly. -/
def isPlain (l : NumberLiteral) : Bool := l.fraction.isEmpty && l.exponent.isNone

/-- The value of a literal; nothing when it is too large. -/
def value? (l : NumberLiteral) : Option Number :=
  let (n, dropped) := readWord 0 l.whole
  if l.isPlain && dropped.isEmpty then
    if !l.negative then some (.natural n)
    else if n = 0 || 0x8000000000000000 < n then some (.float (-Number.nearest n))
    else some (.negative n)
  else
    let (n, ignored) := readWord n l.fraction
    let places : Int := l.fraction.length - ignored.length
    (scale (Number.nearest n) (dropped.length - places + l.power)).map fun x =>
      .float (if l.negative then -x else x)

/-- A whole number fits a word. -/
theorem natural_le {l : NumberLiteral} {n : Nat} (h : l.value? = some (.natural n)) : n ≤ greatestWord := by
  have hword : (readWord 0 l.whole).1 ≤ greatestWord := readWord_le (Nat.zero_le _) _
  unfold value? at h
  dsimp only at h
  split at h
  · split at h
    · cases h
      exact hword
    · split at h <;> cases h
  · obtain ⟨x, -, hx⟩ := Option.map_eq_some_iff.1 h
    cases hx

end NumberLiteral

/-- A double as it is written: positional from `1e-5` up to `1e16` and with a power of ten beyond, always with a point
or a power. What is not finite has no number. -/
def floatChars (x : Float) : List Char :=
  let bits := Binary64.magnitude x
  if Binary64.infinity ≤ bits then ['n', 'u', 'l', 'l']
  else
    let unsigned :=
      if bits = 0 then ['0', '.', '0']
      else
        let (n, e) := Decimal.shortest .even bits
        let power := Decimal.leadingPower n e
        if power < -5 || 15 < power then Decimal.scientific n e
        else if e < 0 then Decimal.positional n e
        else Decimal.positional n e ++ ['.', '0']
    if Binary64.isNegative x then '-' :: unsigned else unsigned

/-- A number as it is written. -/
def Number.chars : Number → List Char
  | .natural n => Decimal.digits n
  | .negative n => '-' :: Decimal.digits n
  | .float x => floatChars x

end FormulaBar.Json
