/-!
# FormulaBar.Text.Hexadecimal — digits up to `f`

`hexDigit?` is the value of a digit in either letter case. `natOfHex?` reads a row of such digits in a base that the
caller names.
-/

namespace FormulaBar.Text

/-- The value of a hexadecimal digit. -/
def hexDigit? (c : Char) : Option Nat :=
  if c.isDigit then some (c.toNat - '0'.toNat)
  else if 'a' ≤ c && c ≤ 'f' then some (c.toNat - 'a'.toNat + 10)
  else if 'A' ≤ c && c ≤ 'F' then some (c.toNat - 'A'.toNat + 10)
  else none

/-- The number that digits denote in a base. -/
def natOfHex? (base : Nat) (ds : List Char) : Option Nat :=
  (ds.mapM hexDigit?).map (·.foldl (fun n d => base * n + d) 0)

theorem hexDigit?_digitChar {n : Nat} (h : n < 16) : hexDigit? (Nat.digitChar n) = some n := by
  have hall : ∀ m ∈ List.range 16, hexDigit? (Nat.digitChar m) = some m := by decide
  exact hall n (List.mem_range.2 h)

end FormulaBar.Text
