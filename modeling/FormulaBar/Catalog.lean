import FormulaBar.Bindings
import FormulaBar.ConfigError
import FormulaBar.Suggestion
import FormulaBar.Number
import FormulaBar.Toml.Document

/-!
# FormulaBar.Catalog — suggestions and the values of variables

A catalog is a TOML file with a list of `suggestions` and a table of `variables`; either may be left out and other
fields count for nothing. Names of variables and suggestions may not be blank and values have to be finite. A variable
has one value, and variables are kept in the order of their names, whatever their order in the file.
-/

namespace FormulaBar

/-- Suggested labels, and the values assigned to variables, in the order of their names. -/
structure Catalog where
  suggestions : List String := []
  assignments : List (String × Float) := []
  sorted : assignments.Pairwise fun p q => p.1 < q.1 := by decide

namespace Catalog

/-- Gives a variable a value in place of the one it had, and keeps the order of names. -/
def assign (name : String) (value : Float) : List (String × Float) → List (String × Float)
  | [] => [(name, value)]
  | (other, x) :: more =>
    if name < other then (name, value) :: (other, x) :: more
    else if name = other then (name, value) :: more
    else (other, x) :: assign name value more

theorem mem_assign {name : String} {value : Float} {p : String × Float} {entries : List (String × Float)}
    (h : p ∈ assign name value entries) : p = (name, value) ∨ p ∈ entries := by
  induction entries with
  | nil => exact .inl (List.mem_singleton.1 h)
  | cons q more ih =>
    rw [assign] at h
    split at h
    · exact List.mem_cons.1 h
    · split at h
      · exact (List.mem_cons.1 h).imp_right (List.mem_cons_of_mem q)
      · rcases List.mem_cons.1 h with rfl | h
        · exact .inr List.mem_cons_self
        · exact (ih h).imp_right (List.mem_cons_of_mem q)

theorem pairwise_assign {entries : List (String × Float)} (h : entries.Pairwise fun p q => p.1 < q.1) (name : String)
    (value : Float) : (assign name value entries).Pairwise fun p q => p.1 < q.1 := by
  induction entries with
  | nil => exact List.pairwise_singleton _ _
  | cons q more ih =>
    obtain ⟨hfirst, hmore⟩ := List.pairwise_cons.1 h
    rw [assign]
    -- in front of the first variable, in its place, or behind it
    split
    · next hless =>
      refine List.pairwise_cons.2 ⟨fun p hp => ?_, h⟩
      rcases List.mem_cons.1 hp with rfl | hp
      · exact hless
      · exact String.lt_trans hless (hfirst p hp)
    · next hge =>
      split
      · next hsame =>
        subst hsame
        exact List.pairwise_cons.2 ⟨hfirst, hmore⟩
      · next hne =>
        refine List.pairwise_cons.2 ⟨fun p hp => ?_, ih hmore⟩
        rcases mem_assign hp with rfl | hp
        · exact Std.lt_of_le_of_ne (String.not_lt.1 hge) (Ne.symm hne)
        · exact hfirst p hp

/-- Gives a variable a value, in its place in the order. -/
def bind (c : Catalog) (name : String) (value : Float) : Catalog where
  suggestions := c.suggestions
  assignments := assign name value c.assignments
  sorted := pairwise_assign c.sorted name value

/-- The catalog that is used when no file is named. -/
def demo : Catalog :=
  { suggestions :=
      [ "Sales", "Revenue", "Expenses", "Profit", "COGS", "Marketing Spend", "Salaries", "Rent", "Utilities",
        "Net Income", "Gross Profit", "Operating Expenses" ]
    assignments :=
      [ ("Expenses", 300), ("Profit", 700), ("Revenue", 1500), ("Sales", 1000), ("x", 10), ("y", 5), ("z", 20) ]
    sorted := by decide +kernel }

/-- The number that a value is. -/
def numberOf? : Toml.Value → Option Float
  | .float x => some x
  | .integer n => some (Decimal.toFloat { negative := n < 0, coefficient := n.natAbs, exponent := 0 })
  | _ => none

/-- The string that a value is. -/
def stringOf? : Toml.Value → Option String
  | .string s => some s
  | _ => none

/-- The suggestions that the fields of a file give. -/
def suggestionsOf? (fields : List (String × Toml.Value)) : Option (List String) :=
  match fields.lookup "suggestions" with
  | none => some []
  | some (.array items) => items.mapM stringOf?
  | some _ => none

/-- The values that the fields of a file assign to variables, in the order of the file. -/
def assignmentsOf? (fields : List (String × Toml.Value)) : Option (List (String × Float)) :=
  match fields.lookup "variables" with
  | none => some []
  | some (.table entries) => entries.mapM fun (name, v) => (numberOf? v).map (name, ·)
  | some _ => none

/-- What is not allowed about a variable. -/
def invalidVariable? (name : String) (x : Float) : Option InvalidConfig :=
  if Text.isBlankText name then some .blankVariable
  else if !Binary64.isFinite x then some (.nonFiniteVariable name (Number.text x))
  else none

/-- The first thing that is not allowed: among the variables in order, then among the suggestions. -/
def invalid? (c : Catalog) : Option InvalidConfig :=
  match c.assignments.findSome? fun (name, x) => invalidVariable? name x with
  | some fault => some fault
  | none => if c.suggestions.any Text.isBlankText then some .blankSuggestion else none

/-- Reads the text of a catalog file. -/
def ofText (text : String) : Except ConfigError Catalog := do
  let some fields := Toml.ofChars? text.toList | throw .malformed
  let some suggestions := suggestionsOf? fields | throw .malformed
  let some assignments := assignmentsOf? fields | throw .malformed
  let c : Catalog := assignments.foldl (fun c (name, x) => c.bind name x) { suggestions }
  match c.invalid? with
  | some fault => throw (.invalid fault)
  | none => return c

/-- The values of all variables. -/
def bindings (c : Catalog) : Bindings := Bindings.ofList c.assignments

/-- Looks labels up among the suggestions. -/
def lookup (c : Catalog) (query : String) : Lookup := .ok (Suggestion.matching c.suggestions query)

end Catalog

end FormulaBar
