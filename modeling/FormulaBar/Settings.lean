import FormulaBar.ConfigError
import FormulaBar.Editor
import FormulaBar.Json.Printer

/-!
# FormulaBar.Settings — the settings file

Settings are a JSON object, or an array of the same values in order; what is left out has its usual value and unknown
fields are passed over unread. Lines that start with `//` are comments.
-/

namespace FormulaBar

/-- A whole number that fits a word. -/
abbrev Word := { n : Nat // n ≤ Json.NumberLiteral.greatestWord }

/-- The settings of the editor. Their numbers fit a word. -/
structure Settings where
  /-- The character that marks a tag. -/
  mark : Char := '@'
  /-- How long to wait after a key before looking labels up, in milliseconds. -/
  debounceMs : Nat := 0
  /-- How many suggestions to show, if not all. -/
  maxCandidates : Option Nat := none
  debounceFits : debounceMs ≤ Json.NumberLiteral.greatestWord := by decide
  candidatesFit : ∀ n ∈ maxCandidates, n ≤ Json.NumberLiteral.greatestWord := by decide
deriving DecidableEq, Repr

namespace Settings

/-- The settings of a user who sets nothing. -/
def usual : Settings := {}

/-- The settings that a mark and two words make. -/
def ofWords (mark : Char) (debounce : Word) (limit : Option Word) : Settings where
  mark := mark
  debounceMs := debounce
  maxCandidates := limit.map (·.1)
  debounceFits := debounce.2
  candidatesFit := by
    intro n hn
    obtain ⟨word, -, rfl⟩ := Option.map_eq_some_iff.1 hn
    exact word.2

/-! ### Text -/

/-- The lines of a text without their ends: a line feed, or a carriage return and a line feed. -/
def lines (cs : List Char) : List (List Char) :=
  match cs with
  | [] => []
  | c :: cs =>
    let line := (c :: cs).takeWhile (· ≠ '\n')
    match _h : (c :: cs).dropWhile (· ≠ '\n') with
    | [] => [line]
    | _ :: rest => (if line.getLast? = some '\r' then line.dropLast else line) :: lines rest
termination_by cs.length
decreasing_by
  have := (List.dropWhile_sublist (· ≠ '\n') (l := c :: cs)).length_le
  rw [_h] at this
  simp at this ⊢; omega

/-- The line is a comment. -/
def isComment (line : List Char) : Bool := ['/', '/'].isPrefixOf (Text.trim line)

/-- The text without its comments. -/
def stripComments (cs : List Char) : List Char :=
  List.intercalate ['\n'] ((lines cs).filter (!isComment ·))

/-! ### JSON -/

/-- The name of the mark. -/
def markKey : String := "formula.tagPrefix"

/-- The name of the waiting time. -/
def debounceKey : String := "autocomplete.debounceMs"

/-- The name of the number of suggestions. -/
def candidatesKey : String := "autocomplete.maxCandidates"

/-- The settings as JSON. -/
def toJson (s : Settings) : Json.Value :=
  .object
    [ (markKey, .string s.mark.toString),
      (debounceKey, .number (.natural s.debounceMs)),
      (candidatesKey, match s.maxCandidates with
        | some n => .number (.natural n)
        | none => .null) ]

/-- A string of one character. -/
def charOf? : Json.Document → Option Char
  | .string units =>
    match Json.charsOfUnits? units with
    | some [c] => some c
    | _ => none
  | _ => none

/-- A whole number that fits a word. -/
def wordOf? : Json.Document → Option Word
  | .number literal =>
    match h : literal.value? with
    | some (.natural n) => some ⟨n, Json.NumberLiteral.natural_le h⟩
    | _ => none
  | _ => none

/-- A whole number, or nothing. -/
def limitOf? : Json.Document → Option (Option Word)
  | .null => some none
  | d => (wordOf? d).map some

/-- Reads the setting of a name, which may occur once; without it, the usual value stands. -/
def setting? {α : Type} (fields : List (String × Json.Document)) (name : String) (usual : α)
    (read? : Json.Document → Option α) : Option α :=
  match fields.filter (·.1 = name) with
  | [] => some usual
  | [(_, d)] => read? d
  | _ => none

/-- The settings that named values give. -/
def ofFields? (fields : List (String × Json.Document)) : Option Settings := do
  let mark ← setting? fields markKey usual.mark charOf?
  let debounce ← setting? fields debounceKey ⟨usual.debounceMs, usual.debounceFits⟩ wordOf?
  let limit ← setting? fields candidatesKey none limitOf?
  return ofWords mark debounce limit

/-- The settings that a document gives. An array names its values by their places. -/
def ofDocument? : Json.Document → Option Settings
  | .object fields => do
    ofFields? (← fields.mapM fun (key, d) => (Json.stringOfUnits? key).map (·, d))
  | .array items =>
    if items.length ≤ 3 then ofFields? ([markKey, debounceKey, candidatesKey].zip items) else none
  | _ => none

/-- Reads the text of a settings file. -/
def ofText? (text : String) : Option Settings :=
  (Json.Document.ofChars? (stripComments text.toList)).bind ofDocument?

/-! ### Rules -/

/-- A mark that could be read as a blank, a part of a number or an operator. -/
def isAmbiguousMark (c : Char) : Bool :=
  Text.isBlank c || c.isDigit || c = '.' || (Operator.ofChar? c).isSome

/-- The first value that is not allowed. -/
def invalid? (s : Settings) : Option InvalidConfig :=
  if isAmbiguousMark s.mark then some (.ambiguousMark s.mark)
  else if s.maxCandidates = some 0 then some .noCandidates
  else none

/-- The rules for an editor. -/
def editorOptions (s : Settings) : EditorOptions := { mark := s.mark, maxCandidates := s.maxCandidates }

/-- The settings of a file's text: the usual ones if anything is wrong with it. -/
def ofTextOrUsual (text : String) : Settings :=
  match ofText? text with
  | some s => if s.invalid?.isSome then usual else s
  | none => usual

/-- The text of a new settings file. -/
def newFile : String :=
  "\x7b\n" ++
  "    // Character that marks a tag reference in typed text\n" ++
  "    \"formula.tagPrefix\": \"@\",\n" ++
  "\n" ++
  "    // Suggestion lookups\n" ++
  "    // debounceMs: wait this long after the last keystroke before querying\n" ++
  "    // maxCandidates: null = show every match\n" ++
  "    \"autocomplete.debounceMs\": 0,\n" ++
  "    \"autocomplete.maxCandidates\": null\n" ++
  "\x7d\n"

end Settings

end FormulaBar
