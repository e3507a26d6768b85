/-!
# FormulaBar.CommandLine.Arguments — the words of a command line

Words are options, option values and operands. An option with a value takes it from behind an equals sign or from the
next word, which may not look like an option itself; single letters may be joined behind one dash. An option is given
once unless it may be repeated, and everything after a double dash is an operand. Words are read from left to right
and the first fault decides. A value that is a word of its own is judged when the next word is read; if that is the
operand that ends the words, the operand is found first and the fault is handed on with it.
-/

namespace FormulaBar.CommandLine

/-- Reading words ends early: for a fault in them, or to show the help or the version. -/
inductive Stop
  | usage
  | help
  | version
deriving DecidableEq, Repr

/-- An option: its name, its letter if it has one, and which values it takes, if it takes any. -/
structure OptionSpec where
  name : String
  letter : Option Char := none
  accepts : Option (String → Bool) := none
  repeats : Bool := false

/-- Which options and operands a command has. -/
structure Grammar where
  options : List OptionSpec
  /-- Which operands are allowed, at the places where one may stand. -/
  operands : List (String → Bool)
  /-- The command has a version to show. -/
  hasVersion : Bool := false
  /-- The first operand ends the words that are read. -/
  stopsAtOperand : Bool := false

/-- Options with their values, in order, and operands. -/
structure Words where
  options : List (String × String) := []
  operands : List String := []
deriving DecidableEq, Repr

/-- How far words were read. -/
structure Reading where
  /-- The words that were noted, or the fault of the last value. -/
  words : Except Stop Words
  /-- The operand that ended the words, and what follows it. -/
  rest : List String

namespace Words

/-- An option was given. -/
def has (w : Words) (name : String) : Bool := w.options.any (·.1 = name)

/-- The values given to an option. -/
def values (w : Words) (name : String) : List String := (w.options.filter (·.1 = name)).map (·.2)

/-- The value given to an option. -/
def value? (w : Words) (name : String) : Option String := (w.values name).head?

/-- Notes an option, which may be given only once unless it repeats. -/
def addOption (w : Words) (o : OptionSpec) (value : String) : Except Stop Words :=
  if (w.has o.name && !o.repeats) || !(o.accepts.getD (fun _ => true)) value then .error .usage
  else .ok { w with options := w.options ++ [(o.name, value)] }

/-- Notes an operand, if there is room for one. -/
def addOperand (g : Grammar) (w : Words) (value : String) : Except Stop Words :=
  match g.operands[w.operands.length]? with
  | none => .error .usage
  | some accepts => if accepts value then .ok { w with operands := w.operands ++ [value] } else .error .usage

/-- Notes operands. -/
def addOperands (g : Grammar) (w : Words) (values : List String) : Except Stop Words :=
  values.foldlM (addOperand g) w

/-- Notes the letters behind a dash. None of the options with a letter takes a value. -/
def addLetters (g : Grammar) (w : Words) : List Char → Except Stop Words
  | [] => .ok w
  | c :: cs =>
    if c = 'h' then .error .help
    else if c = 'V' && g.hasVersion then .error .version
    else
      match g.options.find? (·.letter = some c) with
      | none => .error .usage
      | some o => do addLetters g (← w.addOption o "") cs

/-- A word that starts an option. A single dash is none. -/
def looksLikeOption : List Char → Bool
  | '-' :: _ :: _ => true
  | _ => false

/-- Reads words after those that were noted. Whatever notes or shows something looks at the fault before it. -/
def read (g : Grammar) (noted : Except Stop Words) : List String → Except Stop Reading
  | [] => .ok ⟨noted, []⟩
  | word :: rest =>
    match word.toList with
    | ['-', '-'] => do return ⟨.ok (← (← noted).addOperands g rest), []⟩
    | '-' :: '-' :: cs => do
      let w ← noted
      let name := String.ofList (cs.takeWhile (· ≠ '='))
      let attached := match cs.dropWhile (· ≠ '=') with
        | [] => none
        | _ :: value => some (String.ofList value)
      if name = "help" then if attached.isSome then .error .usage else .error .help
      else if name = "version" && g.hasVersion then if attached.isSome then .error .usage else .error .version
      else
        match g.options.find? (·.name = name) with
        | none => .error .usage
        | some o =>
          match o.accepts, attached with
          | none, some _ => .error .usage
          | none, none => do read g (.ok (← w.addOption o "")) rest
          | some _, some value => do read g (.ok (← w.addOption o value)) rest
          | some _, none =>
            match rest with
            | [] => .error .usage
            | value :: rest =>
              if looksLikeOption value.toList then .error .usage else read g (w.addOption o value) rest
    | '-' :: c :: cs => do read g (.ok (← (← noted).addLetters g (c :: cs))) rest
    | _ =>
      if g.stopsAtOperand then .ok ⟨noted, word :: rest⟩
      else do read g (.ok (← (← noted).addOperand g word)) rest

end Words

end FormulaBar.CommandLine
