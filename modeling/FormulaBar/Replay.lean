import FormulaBar.Script
import FormulaBar.Session

/-!
# FormulaBar.Replay — a script played to its end

The keys are pressed in order; before a key whose effect depends on the candidates, all lookups are brought back. What
is pending at the end is committed as typed, whatever is suggested for it, unless it is to be kept.
-/

namespace FormulaBar

/-- What an editor holds at the end. -/
structure Report where
  tokens : List Token
  expression : String
  result : String
  pending : String
  candidates : List String

namespace Report

/-- The tokens as typed text, one space between neighbours. -/
def expressionOf (mark : Char) (tokens : List Token) : String :=
  String.intercalate " " (tokens.map (·.data.editText mark))

/-- What an editor holds. -/
def ofEditor (e : Editor) : Report :=
  { tokens := e.tokens
    expression := expressionOf e.mark e.tokens
    result := e.result
    pending := e.pending
    candidates := e.popup.view.candidates }

end Report

namespace Replay

/-- Presses a key. -/
def press (lookup : String → Lookup) (s : Session) (key : Key) : Session :=
  ((if key.readsCandidates && 0 < s.inFlight then s.settle lookup else s).handle key.input).1

/-- Commits what is pending as typed, unless it is to be kept. -/
def finish (keepPending : Bool) (s : Session) : Session :=
  if keepPending || Text.isBlankText s.editor.pending then s
  else ((s.handle .cancel).1.handle .confirm).1

/-- Plays keys to their end. -/
def run (lookup : String → Lookup) (keepPending : Bool) (editor : Editor) (keys : List Key) (debounce : Nat := 0) :
    Report :=
  let played := finish keepPending (keys.foldl (press lookup) { editor, debounce })
  Report.ofEditor (played.settle lookup).editor

end Replay

end FormulaBar
