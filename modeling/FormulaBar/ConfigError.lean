/-!
# FormulaBar.ConfigError — what can be wrong with a configuration file

A file may be unreadable, its text may not have the expected form, or a value in it may not be allowed.
-/

namespace FormulaBar

/-- A value that is not allowed. -/
inductive InvalidConfig
  | ambiguousMark (mark : Char)
  | noCandidates
  | blankVariable
  | nonFiniteVariable (name : String) (value : String)
  | blankSuggestion
deriving DecidableEq, Repr

namespace InvalidConfig

/-- The text about a value. -/
def message : InvalidConfig → String
  | ambiguousMark mark =>
    "formula.tagPrefix '" ++ mark.toString ++ "' would be ambiguous with numbers or operators"
  | noCandidates => "autocomplete.maxCandidates must be at least 1"
  | blankVariable => "variable name must not be blank"
  | nonFiniteVariable name value => "variable '" ++ name ++ "' must be a finite number, got " ++ value
  | blankSuggestion => "suggestion labels must not be blank"

end InvalidConfig

/-- What is wrong with a configuration file. -/
inductive ConfigError
  | unreadable (path reason : String)
  | malformed
  | invalid (value : InvalidConfig)
deriving DecidableEq, Repr

namespace ConfigError

/-- The text of an error. A malformed file is not described further. -/
def message : ConfigError → String
  | unreadable path reason => path ++ ": " ++ reason
  | malformed => "config parse error"
  | invalid value => "config validation error: " ++ value.message

end ConfigError

end FormulaBar
