import FormulaBar.Editor

/-!
# FormulaBar.Script — keys written as text

A script is typed as it stands, one character a key. Named keys are written between braces, in any letter case and with
blanks around the name; a brace that is to be typed is written twice.
-/

namespace FormulaBar

/-- A key. -/
inductive Key
  | char (c : Char)
  | enter
  | tab
  | backspace
  | escape
  | up
  | down
deriving DecidableEq, Repr

namespace Key

/-- The input that a key is. -/
def input : Key → Input
  | char c => .char c
  | enter => .confirm
  | tab => .advance
  | backspace => .backspace
  | escape => .cancel
  | up => .previous
  | down => .next

/-- What the key does depends on the candidates, so it is pressed only after they have come. -/
def readsCandidates : Key → Bool
  | enter | tab | up | down => true
  | _ => false

/-- The key of a name in lower case. -/
def ofName? : List Char → Option Key
  | ['e', 'n', 't', 'e', 'r'] => some enter
  | ['r', 'e', 't', 'u', 'r', 'n'] => some enter
  | ['t', 'a', 'b'] => some tab
  | ['b', 's'] => some backspace
  | ['b', 'a', 'c', 'k', 's', 'p', 'a', 'c', 'e'] => some backspace
  | ['e', 's', 'c'] => some escape
  | ['e', 's', 'c', 'a', 'p', 'e'] => some escape
  | ['u', 'p'] => some up
  | ['d', 'o', 'w', 'n'] => some down
  | _ => none

end Key

/-- Why a script cannot be read. Offsets count bytes and point at the brace. -/
inductive ScriptError
  | unknownKey (name : String) (offset : Nat)
  | unterminated (offset : Nat)
  | strayBrace (offset : Nat)
deriving DecidableEq, Repr

namespace ScriptError

/-- The text of an error. -/
def message : ScriptError → String
  | unknownKey name offset => "unknown key \x7b" ++ name ++ "\x7d at offset " ++ toString offset
  | unterminated offset => "unterminated '\x7b' at offset " ++ toString offset
  | strayBrace offset => "stray '\x7d' at offset " ++ toString offset ++ " (use '\x7d\x7d')"

end ScriptError

namespace Script

/-- The keys of a script that starts at a given offset. The braces are `\x7b` and `\x7d`. -/
def keysFrom (offset : Nat) : List Char → Except ScriptError (List Key)
  | [] => .ok []
  | '\x7b' :: '\x7b' :: cs => do return .char '\x7b' :: (← keysFrom (offset + 2) cs)
  | '\x7b' :: cs =>
    let name := cs.takeWhile (· ≠ '\x7d')
    match _h : cs.dropWhile (· ≠ '\x7d') with
    | [] => .error (.unterminated offset)
    | _ :: rest =>
      match Key.ofName? ((Text.trim name).map Char.toLower) with
      | none => .error (.unknownKey (String.ofList name) offset)
      | some key => do return key :: (← keysFrom (offset + Text.byteLength name + 2) rest)
  | '\x7d' :: '\x7d' :: cs => do return .char '\x7d' :: (← keysFrom (offset + 2) cs)
  | '\x7d' :: _ => .error (.strayBrace offset)
  | c :: cs => do return .char c :: (← keysFrom (offset + c.utf8Size) cs)
termination_by cs => cs.length
decreasing_by
  · simp only [List.length_cons]; omega
  · have := (List.dropWhile_sublist (· ≠ '\x7d') (l := cs)).length_le
    rw [_h] at this
    simp only [List.length_cons] at this ⊢; omega
  · simp only [List.length_cons]; omega
  · simp only [List.length_cons]; omega

/-- The keys of a script. -/
def keys (script : String) : Except ScriptError (List Key) := keysFrom 0 script.toList

end Script

end FormulaBar
