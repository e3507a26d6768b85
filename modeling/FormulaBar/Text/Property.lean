/-!
# FormulaBar.Text.Property — sets of characters given by their boundaries

A property of characters is written as the ascending list of the code points at which it starts to hold and stops
holding, in turn. `holdsAt` reads such a list.
-/

namespace FormulaBar.Text

/-- The property with these boundaries holds of `c`: an odd number of them lies at or below it. -/
def holdsAt (boundaries : List Nat) (c : Char) : Bool :=
  (boundaries.takeWhile (· ≤ c.toNat)).length % 2 = 1

end FormulaBar.Text
