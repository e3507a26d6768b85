import FormulaBar.Json.Printer
import FormulaBar.Suggestion

/-!
# FormulaBar.Suggestion.Json — suggested labels as JSON

A suggestion is written as an object with its `label`. It is read from such an object, from one with a `name` instead,
or from a bare string; the label comes first.
-/

namespace FormulaBar.Suggestion

/-- A suggestion as JSON. -/
def toJson (label : String) : Json.Value := .object [("label", .string label)]

/-- The string in the only field of this name. -/
def stringField? (name : String) (fields : List (String × Json.Value)) : Option String :=
  match Json.Value.onlyField? name fields with
  | some (.string s) => some s
  | _ => none

/-- The label of the suggestion that a JSON value is. -/
def ofJson? : Json.Value → Option String
  | .string label => some label
  | .object fields => (stringField? "label" fields).orElse fun _ => stringField? "name" fields
  | _ => none

/-- The labels of a text that is a JSON array of suggestions. -/
def listOfChars? (cs : List Char) : Option (List String) :=
  match Json.Value.ofChars? cs with
  | some (.array items) => items.mapM ofJson?
  | _ => none

end FormulaBar.Suggestion
