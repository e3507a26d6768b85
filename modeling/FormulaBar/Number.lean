import FormulaBar.Decimal.Literal
import FormulaBar.Decimal.Text

/-!
# FormulaBar.Number — the numbers of a formula, read and shown

A number is shown with the fewest digits that read back, a tie going up, never with a power of ten and without a
point when it is whole; both zeros are shown as `0`. It is read from a decimal literal, unless that is too large.
-/

namespace FormulaBar.Number

open Binary64

/-- The text of a finite magnitude. -/
def unsignedChars (bits : Nat) : List Char :=
  if bits = 0 then ['0']
  else
    let decimal := Decimal.shortest .up bits
    Decimal.positional decimal.1 decimal.2

/-- The text of a number as characters. -/
def chars (x : Float) : List Char :=
  let bits := magnitude x
  if infinity < bits then ['N', 'a', 'N']
  else
    let unsigned := if bits = infinity then ['i', 'n', 'f'] else unsignedChars bits
    if isNegative x && bits ≠ 0 then '-' :: unsigned else unsigned

/-- The text of a number: what is shown, and what a formula is read from. -/
def text (x : Float) : String := String.ofList (chars x)

/-- Reads a text that is entirely a decimal literal of a finite number. -/
def ofChars? (cs : List Char) : Option Float :=
  (Decimal.ofLiteral? cs).bind fun d => if d.magnitude < infinity then some d.toFloat else none

/-- Reads a string that is entirely a decimal literal of a finite number. -/
def ofText? (s : String) : Option Float := ofChars? s.toList

end FormulaBar.Number
