import FormulaBar.CommandLine.Run

/-!
# FormulaBar.Main — the program

Reads the files that a run may need, runs it, and writes what it leaves.
-/

namespace FormulaBar.CommandLine

/-- What the numbers of system errors mean. -/
def systemReasons : List (Nat × String) :=
  [ (2, "No such file or directory"), (13, "Permission denied"), (20, "Not a directory"), (21, "Is a directory"),
    (36, "File name too long") ]

/-- The text for the number of a system error, which some errors carry negated. -/
def systemReason (code : UInt32) (details : String) : String :=
  let number := (if code < 0x80000000 then code else 0 - code).toNat
  (systemReasons.lookup number).getD details ++ " (os error " ++ toString number ++ ")"

/-- Why a file cannot be read. -/
def reasonOf : IO.Error → String
  | .noFileOrDirectory _ code details | .permissionDenied _ code details | .inappropriateType _ code details
  | .invalidArgument _ code details | .otherError code details => systemReason code details
  | e => toString e

/-- The text of some bytes. -/
def textOf (bytes : ByteArray) : Except String String :=
  match String.fromUTF8? bytes with
  | some text => .ok text
  | none => .error "stream did not contain valid UTF-8"

/-- A file as it was found. -/
structure FoundFile where
  path : String
  contents : Except String String
  isMissing : Bool

/-- Reads a file. -/
def findFile (path : String) : IO FoundFile := do
  try
    return ⟨path, textOf (← IO.FS.readBinFile path), false⟩
  catch e =>
    let isMissing := match e with
      | .noFileOrDirectory _ _ _ => true
      | _ => false
    return ⟨path, .error (reasonOf e), isMissing⟩

/-- Reads the standard input. -/
def findInput : IO (Except String String) := do
  try
    return textOf (← (← IO.getStdin).readBinToEnd)
  catch e =>
    return .error (reasonOf e)

/-- The settings file of the user. -/
def userSettingsPath : IO String := do
  let folder ← match ← IO.getEnv "XDG_CONFIG_HOME" with
    | some folder => pure folder
    | none => pure (((← IO.getEnv "HOME").getD ".") ++ "/.config")
  return folder ++ "/tagcalc/settings.json"

/-- The environment of a run. -/
def environmentFor (words : List String) : IO Environment := do
  let settings ← IO.getEnv "TAGCALC_SETTINGS"
  let userSettings ← userSettingsPath
  let bare : Environment :=
    { read := fun _ => .error "", exists? := fun _ => false, input := .ok "", settings, userSettings }
  let wanted := paths bare words
  let files ← wanted.mapM findFile
  let input ← if wanted.contains "-" then findInput else pure (.ok "")
  let file? (path : String) : Option FoundFile := files.find? (·.path = path)
  return { bare with
    read := fun path => ((file? path).map (·.contents)).getD (.error "")
    exists? := fun path => ((file? path).map (!·.isMissing)).getD false
    input }

/-- Writes a file and makes the folder that it lies in. -/
def writeTo (path text : String) : IO Unit := do
  let folder := (path.toList.reverse.dropWhile (· ≠ '/')).reverse
  IO.FS.createDirAll (String.ofList folder)
  IO.FS.writeFile path text

end FormulaBar.CommandLine

open FormulaBar.CommandLine in
/-- The program. -/
def main (words : List String) : IO UInt32 := do
  let outcome := run (← environmentFor words) words
  for (path, text) in outcome.writes do
    try writeTo path text catch _ => pure ()
  IO.print outcome.out
  IO.eprint outcome.err
  return UInt32.ofNat outcome.code
