import FormulaBar.Catalog
import FormulaBar.CommandLine.Help
import FormulaBar.Replay
import FormulaBar.Settings
import FormulaBar.Suggestion.Json
import FormulaBar.Token.Json

/-!
# FormulaBar.CommandLine.Run — what the program does

A run is a function of the words of the command line and of an environment: the files, the standard input and where
settings are. It gives an exit code, the texts for the two outputs, and the files to write. Code 1 means that the
formula has no value, 2 that the words or the script are wrong, 3 that a file cannot be read, 4 that its contents are
wrong.
-/

namespace FormulaBar.CommandLine

/-- What a run finds: the text of a file, or why it cannot be read. -/
structure Environment where
  read : String → Except String String
  exists? : String → Bool
  input : Except String String
  /-- The settings file that the environment names. -/
  settings : Option String
  /-- The settings file of the user. -/
  userSettings : String

/-- What a run leaves: files to write are pairs of a path and a text. -/
structure Outcome where
  code : Nat := 0
  out : String := ""
  err : String := ""
  writes : List (String × String) := []
deriving DecidableEq, Repr

/-- Why a word does not bind a variable. -/
inductive BindingFault
  | noEquals (word : String)
  | blankName (word : String)
  | notNumber (word value : String)
deriving DecidableEq, Repr

namespace BindingFault

/-- The text of a fault. -/
def message : BindingFault → String
  | noEquals word => "--var " ++ Text.quoted word ++ ": expected NAME=VALUE"
  | blankName word => "--var " ++ Text.quoted word ++ ": empty name"
  | notNumber word value => "--var " ++ Text.quoted word ++ ": " ++ Text.quoted value ++ " is not a finite number"

end BindingFault

/-- Why a command fails. -/
inductive Failure
  | script (e : ScriptError)
  | binding (e : BindingFault)
  | config (e : ConfigError)
  | unreadable (path reason : String)
  | malformedJson (path : String)
  | notTokens (path : String)
  | rejected (path : String) (e : LoadError)
  | invalidExpression

namespace Failure

/-- The exit code of a failure. -/
def code : Failure → Nat
  | invalidExpression => 1
  | script _ | binding _ => 2
  | config (.unreadable _ _) | unreadable _ _ => 3
  | config _ | malformedJson _ | notTokens _ | rejected _ _ => 4

/-- The text of a failure. A formula without a value has been shown already. -/
def message? : Failure → Option String
  | script e => some e.message
  | binding e => some e.message
  | config e => some e.message
  | unreadable path reason => some (path ++ ": " ++ reason)
  | malformedJson path => some (path ++ ": malformed JSON")
  | notTokens path => some (path ++ ": data did not match any variant of untagged enum TokenInput")
  | rejected path e => some (path ++ ": " ++ e.message)
  | invalidExpression => none

/-- What may help. -/
def hint? : Failure → Option String
  | script _ => some "named keys: \x7benter\x7d \x7btab\x7d \x7bbs\x7d \x7besc\x7d \x7bup\x7d \x7bdown\x7d"
  | malformedJson _ | notTokens _ => some "expected a token array or the output of `tagcalc calc --json`"
  | _ => none

/-- The lines for the error output. -/
def text (f : Failure) : String :=
  (match f.message? with
    | some message => "error: " ++ message ++ "\n"
    | none => "") ++
  (match f.hint? with
    | some hint => "hint:  " ++ hint ++ "\n"
    | none => "")

end Failure

/-- What a command shows, and whether it fails after that. -/
structure Shown where
  out : String
  failure : Option Failure := none

/-! ## Sources -/

/-- The variable and the value that a word binds. -/
def bindingOf (word : String) : Except BindingFault (String × Float) :=
  match word.toList.dropWhile (· ≠ '=') with
  | [] => .error (.noEquals word)
  | _ :: value =>
    let name := Text.trim (word.toList.takeWhile (· ≠ '='))
    let value := Text.trim value
    if name = [] then .error (.blankName word)
    else
      match Number.ofChars? value with
      | none => .error (.notNumber word (String.ofList value))
      | some x => .ok (String.ofList name, x)

/-- Reads the catalog of a file, or takes the one for demonstration. -/
def loadCatalog (env : Environment) : Option String → Except Failure Catalog
  | none => .ok .demo
  | some path =>
    match env.read path with
    | .error reason => .error (.config (.unreadable path reason))
    | .ok text => (Catalog.ofText text).mapError .config

/-- Binds the variables that words give, in order. -/
def bindAll (c : Catalog) : List String → Except Failure Catalog
  | [] => .ok c
  | word :: words => do
    let (name, x) ← (bindingOf word).mapError .binding
    bindAll (c.bind name x) words

/-- Reads the catalog and binds variables. -/
def loadSource (env : Environment) (s : Source) : Except Failure Catalog := do
  bindAll (← loadCatalog env s.catalog) s.bindings

/-! ## Commands -/

/-- The failure of a formula without a value. -/
def failureOf (result : String) : Option Failure :=
  if result = Formula.invalid then some .invalidExpression else none

/-- A report as JSON. -/
def reportJson (r : Report) : Json.Value :=
  .object
    [ ("tokens", .array (r.tokens.map Token.toJson)), ("expression", .string r.expression),
      ("result", .string r.result), ("pending", .string r.pending),
      ("candidates", .array (r.candidates.map .string)) ]

/-- A report as lines. -/
def reportLines (r : Report) : List String :=
  (if r.expression = "" then [] else [r.expression]) ++ ["= " ++ r.result] ++
    (if r.pending = "" then [] else ["pending: " ++ r.pending]) ++
    (if r.candidates.isEmpty then [] else ["candidates: " ++ String.intercalate ", " r.candidates])

/-- Lines as text. -/
def unlines (lines : List String) : String := String.join (lines.map (· ++ "\n"))

/-- Plays a key script. -/
def playScript (env : Environment) (settings : Settings) (script : String) (source : Source) (keepPending json : Bool) :
    Except Failure Shown := do
  let keys ← (Script.keys script).mapError .script
  let catalog ← loadSource env source
  let editor := Editor.start catalog.bindings settings.editorOptions
  let report := Replay.run catalog.lookup keepPending editor keys settings.debounceMs
  let lines := if json then [(reportJson report).pretty] else reportLines report
  return { out := unlines lines, failure := failureOf report.result }

/-- The tokens of a JSON value: an array of them, or an object with such an array. -/
def tokensOf? : Json.Value → Option (List Token)
  | .array items => (items.mapM Token.ofJson).toOption
  | .object fields =>
    match Json.Value.onlyField? "tokens" fields with
    | some (.array items) => (items.mapM Token.ofJson).toOption
    | _ => none
  | _ => none

/-- The tokens of a JSON text. -/
def readTokens (path text : String) : Except Failure (List Token) :=
  match Json.Document.front? text.toList with
  | none => .error (.malformedJson path)
  | some (d, complete) =>
    match d.value? with
    | none => .error (.malformedJson path)
    | some v =>
      match tokensOf? v with
      | none => .error (.notTokens path)
      | some tokens => if complete then .ok tokens else .error (.malformedJson path)

/-- The text of a file, or of the standard input when the path is a dash. -/
def readInput (env : Environment) (path : String) : Except Failure String :=
  if path = "-" then env.input.mapError (.unreadable "stdin")
  else (env.read path).mapError (.unreadable path)

/-- Evaluates tokens. -/
def evaluateTokens (env : Environment) (path : String) (source : Source) (json : Bool) : Except Failure Shown := do
  let tokens ← readTokens path (← readInput env path)
  let (sequence, _) ← (TokenSequence.load {} tokens).mapError (.rejected path)
  let bindings := (← loadSource env source).bindings
  let result := Formula.result sequence.tokens bindings
  let shown : Json.Value :=
    .object [("source", .string (Formula.source sequence.tokens bindings)), ("result", .string result)]
  return { out := unlines [if json then shown.pretty else result], failure := failureOf result }

/-- Looks labels up. -/
def lookUp (env : Environment) (settings : Settings) (query : String) (catalog : Option String)
    (limit : Option Nat) (json : Bool) :
    Except Failure Shown := do
  let labels := Suggestion.matching (← loadCatalog env catalog).suggestions query
  let labels := match limit.orElse fun _ => settings.maxCandidates with
    | some n => labels.take n
    | none => labels
  return { out := unlines (if json then [(Json.Value.array (labels.map Suggestion.toJson)).pretty] else labels) }

/-- Does what a command says. -/
def runCommand (env : Environment) (settings : Settings) : Command → Except Failure Shown
  | .calc script source keepPending json => playScript env settings script source keepPending json
  | .eval input source json => evaluateTokens env input source json
  | .suggest query catalog limit json => lookUp env settings query catalog limit json

/-! ## Settings and outcome -/

/-- The settings of a file: the usual ones if anything is wrong with it. -/
def settingsOfFile (env : Environment) (path : String) : Settings :=
  match env.read path with
  | .ok text => Settings.ofTextOrUsual text
  | .error _ => .usual

/-- The settings, and the file to write when the user has none yet. -/
def loadSettings (env : Environment) (named : Option String) : Settings × List (String × String) :=
  match named.orElse fun _ => env.settings with
  | some path => (settingsOfFile env path, [])
  | none =>
    if env.exists? env.userSettings then (settingsOfFile env env.userSettings, [])
    else (.usual, [(env.userSettings, Settings.newFile)])

/-- Does what the words of a command line ask for. -/
def run (env : Environment) (words : List String) : Outcome :=
  match Request.ofWords words with
  | .usageError => { code := 2, err := HelpPage.text (env.settings.getD "") .program }
  | .version => { out := version ++ "\n" }
  | .help page => { out := page.text (env.settings.getD "") }
  | .run invocation =>
    let (settings, writes) := loadSettings env invocation.settings
    match runCommand env settings invocation.command with
    | .error failure => { code := failure.code, err := failure.text, writes }
    | .ok shown =>
      match shown.failure with
      | some failure => { code := failure.code, out := shown.out, err := failure.text, writes }
      | none => { out := shown.out, writes }

/-- The files that a run may read. -/
def paths (env : Environment) (words : List String) : List String :=
  match Request.ofWords words with
  | .run invocation =>
    let settings := (invocation.settings.orElse fun _ => env.settings).getD env.userSettings
    let named := match invocation.command with
      | .calc _ source _ _ => source.catalog.toList
      | .eval input source _ => input :: source.catalog.toList
      | .suggest _ catalog _ _ => catalog.toList
    settings :: named
  | _ => []

end FormulaBar.CommandLine
