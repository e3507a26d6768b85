import FormulaBar.CommandLine.Arguments
import FormulaBar.Decimal.Literal

/-!
# FormulaBar.CommandLine.Command — what a command line asks for

There are three commands: play a key script, evaluate tokens, and look labels up. Each has its own options, and two
options may stand before the command or after it.
-/

namespace FormulaBar.CommandLine

/-- Where variables and suggestions come from: a catalog file, and bindings that win over it. -/
structure Source where
  catalog : Option String := none
  bindings : List String := []
deriving DecidableEq, Repr

/-- A command. -/
inductive Command
  | calc (script : String) (source : Source) (keepPending json : Bool)
  | eval (input : String) (source : Source) (json : Bool)
  | suggest (query : String) (catalog : Option String) (limit : Option Nat) (json : Bool)
deriving DecidableEq, Repr

/-- A command, and the settings file named with it. -/
structure Invocation where
  command : Command
  settings : Option String
deriving DecidableEq, Repr

/-- The pages of help. -/
inductive HelpPage
  | program
  | calc
  | eval
  | suggest
  | help
deriving DecidableEq, Repr

/-- What a command line asks for. -/
inductive Request
  | run (invocation : Invocation)
  | help (page : HelpPage)
  | version
  | usageError
deriving DecidableEq, Repr

namespace Command

/-- A path may not be empty. -/
def isPath (s : String) : Bool := s ≠ ""

/-- A whole number in decimal that fits a word, with an optional plus sign. -/
def limit? (s : String) : Option Nat :=
  let ds := match s.toList with
    | '+' :: cs => cs
    | cs => cs
  let n := Decimal.natOfDigits ds
  if ds ≠ [] && ds.all Char.isDigit && n ≤ 0xffffffffffffffff then some n else none

/-- The options that every command has. -/
def commonOptions : List OptionSpec :=
  [ { name := "settings", accepts := some isPath },
    { name := "verbose", letter := some 'v' } ]

/-- The option that names a catalog. -/
def catalogOption : OptionSpec := { name := "catalog", accepts := some isPath }

/-- The option that binds a variable. -/
def bindingOption : OptionSpec := { name := "var", accepts := some fun _ => true, repeats := true }

/-- The words before the command. -/
def programGrammar : Grammar :=
  { options := commonOptions, operands := [], hasVersion := true, stopsAtOperand := true }

/-- The words after the command to play a script. -/
def calcGrammar : Grammar :=
  { options := commonOptions ++ [catalogOption, bindingOption, { name := "keep-pending" }, { name := "json" }]
    operands := [fun _ => true] }

/-- The words after the command to evaluate tokens. -/
def evalGrammar : Grammar :=
  { options := commonOptions ++ [catalogOption, bindingOption, { name := "json" }], operands := [isPath] }

/-- The words after the command to look labels up. -/
def suggestGrammar : Grammar :=
  { options := commonOptions ++
      [catalogOption, { name := "limit", accepts := some fun s => (limit? s).isSome }, { name := "json" }]
    operands := [fun _ => true] }

/-- Where variables and suggestions come from. -/
def sourceOf (w : Words) : Source := { catalog := w.value? "catalog", bindings := w.values "var" }

/-- The command to play a script. -/
def calcOf (w : Words) (script : String) : Command :=
  .calc script (sourceOf w) (w.has "keep-pending") (w.has "json")

/-- The command to evaluate tokens. -/
def evalOf (w : Words) (input : String) : Command := .eval input (sourceOf w) (w.has "json")

/-- The command to look labels up. -/
def suggestOf (w : Words) (query : String) : Command :=
  .suggest query (w.value? "catalog") ((w.value? "limit").bind limit?) (w.has "json")

end Command

namespace Request

/-- Reads the words after a command. A settings file named there wins over one named before it. The command shows its
help even if the last value before it is at fault. -/
def ofRest (g : Grammar) (page : HelpPage) (build : Words → String → Command) (outer : Except Stop Words)
    (rest : List String) : Request :=
  match Words.read g (.ok {}) rest >>= (·.words) with
  | .error .help => .help page
  | .error _ => .usageError
  | .ok w =>
    match w.operands, outer with
    | [operand], .ok outer =>
      .run ⟨build w operand, (w.value? "settings").orElse fun _ => outer.value? "settings"⟩
    | _, _ => .usageError

/-- Reads the words after the word that asks for help. -/
def ofHelp : List String → Request
  | [] => .help .program
  | ["calc"] => .help .calc
  | ["eval"] => .help .eval
  | ["suggest"] => .help .suggest
  | ["help"] => .help .help
  | _ => .usageError

/-- What the words of a command line ask for. -/
def ofWords (words : List String) : Request :=
  match Words.read Command.programGrammar (.ok {}) words with
  | .error .help => .help .program
  | .error .version => .version
  | .error .usage => .usageError
  | .ok ⟨outer, rest⟩ =>
    match rest with
    | "calc" :: rest => ofRest Command.calcGrammar .calc Command.calcOf outer rest
    | "eval" :: rest => ofRest Command.evalGrammar .eval Command.evalOf outer rest
    | "suggest" :: rest => ofRest Command.suggestGrammar .suggest Command.suggestOf outer rest
    | "help" :: rest => ofHelp rest
    | _ => .usageError

end Request

end FormulaBar.CommandLine
