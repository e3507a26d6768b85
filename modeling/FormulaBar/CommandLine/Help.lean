import FormulaBar.CommandLine.Command

/-!
# FormulaBar.CommandLine.Help — the pages of help

A page names the use of the program or of a command, then its operands and options. The option for the settings file
shows the file that the environment names.
-/

namespace FormulaBar.CommandLine

/-- The version of the program. -/
def version : String := "tagcalc 0.1.0"

namespace HelpPage

/-- The line of the option for the settings file. -/
def settingsLine (fromEnvironment : String) : String :=
  "      --settings <SETTINGS>  Settings file (defaults to the per-user config directory) [env: TAGCALC_SETTINGS=" ++
    fromEnvironment ++ "]"

/-- The line of the option for the catalog. -/
def catalogLine (width : String) : String :=
  "      --catalog <CATALOG>    " ++ width

/-- The line of the option to log. -/
def verboseLine : String := "  -v, --verbose              Log engine activity to stderr"

/-- The line of the option for bindings. -/
def bindingLine : String := "      --var <NAME=VALUE>     Bind a variable, overriding the catalog (repeatable)"

/-- The line of the option for JSON. -/
def jsonLine : String := "      --json                 Output as JSON"

/-- The line of the option for help. -/
def helpLine : String := "  -h, --help                 Print help"

/-- What help is for. -/
def purpose : String := "Print this message or the help of the given subcommand(s)"

/-- The lines of a page. -/
def lines (fromEnvironment : String) : HelpPage → List String
  | .program =>
    [ "Token-based formula editor (headless)", "",
      "Usage: tagcalc [OPTIONS] <COMMAND>", "",
      "Commands:",
      "  calc     Type a key script into the editor and print the result",
      "  eval     Evaluate an exported token list (JSON file, or - for stdin)",
      "  suggest  List catalog labels matching a query",
      "  help     " ++ purpose, "",
      "Options:",
      settingsLine fromEnvironment, verboseLine, helpLine,
      "  -V, --version              Print version" ]
  | .calc =>
    [ "Type a key script into the editor and print the result", "",
      "Usage: tagcalc calc [OPTIONS] <SCRIPT>", "",
      "Arguments:",
      "  <SCRIPT>  Key script", "",
      "Options:",
      catalogLine "Catalog TOML with `suggestions` and `[variables]` (defaults to the demo catalog)",
      settingsLine fromEnvironment, verboseLine, bindingLine,
      "      --keep-pending         Leave trailing pending text uncommitted",
      jsonLine, helpLine, "",
      "Named keys: \x7benter\x7d \x7btab\x7d \x7bbs\x7d \x7besc\x7d \x7bup\x7d \x7bdown\x7d; " ++
        "\x7b\x7b and \x7d\x7d type a literal brace.", "",
      "Examples:",
      "  tagcalc calc '2+3*4'",
      "  tagcalc calc '@rev\x7btab\x7d-@rent\x7benter\x7d'",
      "  tagcalc calc 'x*y' --var x=3 --var y=4 --json" ]
  | .eval =>
    [ "Evaluate an exported token list (JSON file, or - for stdin)", "",
      "Usage: tagcalc eval [OPTIONS] <INPUT>", "",
      "Arguments:",
      "  <INPUT>  ", "",
      "Options:",
      catalogLine "Catalog TOML with `suggestions` and `[variables]` (defaults to the demo catalog)",
      settingsLine fromEnvironment, verboseLine, bindingLine, jsonLine, helpLine, "",
      "Accepts a token array or the object printed by `calc --json`.", "",
      "Examples:",
      "  tagcalc eval tokens.json",
      "  tagcalc calc '@sales*2' --json | tagcalc eval -" ]
  | .suggest =>
    [ "List catalog labels matching a query", "",
      "Usage: tagcalc suggest [OPTIONS] <QUERY>", "",
      "Arguments:",
      "  <QUERY>  ", "",
      "Options:",
      catalogLine "Catalog TOML (defaults to the demo catalog)",
      settingsLine fromEnvironment,
      "      --limit <LIMIT>        Maximum number of candidates (defaults to autocomplete.maxCandidates)",
      verboseLine, jsonLine, helpLine ]
  | .help =>
    [ purpose, "",
      "Usage: tagcalc help [COMMAND]...", "",
      "Arguments:",
      "  [COMMAND]...  Print help for the subcommand(s)" ]

/-- The text of a page. -/
def text (fromEnvironment : String) (page : HelpPage) : String :=
  String.join ((page.lines fromEnvironment).map (· ++ "\n"))

end HelpPage

end FormulaBar.CommandLine
