import FormulaBar.Text.Blank
import FormulaBar.Text.Case

/-!
# FormulaBar.Suggestion — looking up labels

A lookup answers with labels or fails. `matching` is the lookup in a fixed list: the labels that contain the query,
letter case and surrounding blanks aside, in the order of the list; a blank query finds nothing.
-/

namespace FormulaBar

/-- Why a lookup has no answer. -/
inductive LookupError
  | unavailable (reason : String)
  | timeout
deriving DecidableEq, Repr

namespace LookupError

/-- The text of a failure. -/
def message : LookupError → String
  | unavailable reason => "suggestion provider unavailable: " ++ reason
  | timeout => "suggestion lookup timed out"

end LookupError

/-- The answer to a lookup: labels, best first. -/
abbrev Lookup := Except LookupError (List String)

namespace Suggestion

/-- The labels that contain the query. -/
def matching (labels : List String) (query : String) : List String :=
  let wanted := Text.lower (Text.trim query.toList)
  if wanted = [] then [] else labels.filter fun label => Text.contains (Text.lower label.toList) wanted

end Suggestion

end FormulaBar
