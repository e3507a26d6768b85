import FormulaBar.Json.Value

/-!
# FormulaBar.Json.Printer — writing JSON

A value is written without blanks (`compact`), or with every item and field on a line of its own, two spaces deeper
than what holds it (`pretty`); an empty array or object stays on its line. In strings the quote, the backslash and the
characters below the space are escaped, and everything else stands as it is.
-/

namespace FormulaBar.Json

/-- A character inside a string. -/
def escapeChar (c : Char) : List Char :=
  if c = '\x22' || c = '\\' then ['\\', c]
  else if c = '\x08' then ['\\', 'b']
  else if c = '\x0c' then ['\\', 'f']
  else if c = '\n' then ['\\', 'n']
  else if c = '\r' then ['\\', 'r']
  else if c = '\t' then ['\\', 't']
  else if c.toNat < 0x20 then ['\\', 'u', '0', '0', Nat.digitChar (c.toNat / 16), Nat.digitChar (c.toNat % 16)]
  else [c]

/-- A string as it is written. -/
def stringChars (s : String) : List Char := '\x22' :: s.toList.flatMap escapeChar ++ ['\x22']

/-- How the parts of arrays and objects are set apart, at each depth of nesting. -/
structure Layout where
  /-- What stands before a part at this depth, and before the closing mark one depth higher. -/
  gap : Nat → List Char
  /-- What stands between a name and its value. -/
  colon : List Char

namespace Layout

/-- Nothing is set apart. -/
def compact : Layout := ⟨fun _ => [], [':']⟩

/-- Every part has a line of its own, two spaces deeper than what holds it. -/
def pretty : Layout := ⟨fun depth => '\n' :: List.replicate (2 * depth) ' ', [':', ' ']⟩

end Layout

namespace Value

mutual

/-- A value at a depth of nesting. -/
def chars (layout : Layout) (depth : Nat) : Value → List Char
  | null => ['n', 'u', 'l', 'l']
  | bool true => ['t', 'r', 'u', 'e']
  | bool false => ['f', 'a', 'l', 's', 'e']
  | number n => n.chars
  | string s => stringChars s
  | array [] => ['[', ']']
  | array (v :: vs) =>
    '[' :: layout.gap (depth + 1) ++ v.chars layout (depth + 1) ++ moreItems layout (depth + 1) vs ++
      layout.gap depth ++ [']']
  | object [] => ['\x7b', '\x7d']
  | object ((key, v) :: fs) =>
    '\x7b' :: layout.gap (depth + 1) ++ stringChars key ++ layout.colon ++ v.chars layout (depth + 1) ++
      moreFields layout (depth + 1) fs ++ layout.gap depth ++ ['\x7d']

/-- The items of an array after the first. -/
def moreItems (layout : Layout) (depth : Nat) : List Value → List Char
  | [] => []
  | v :: vs => ',' :: layout.gap depth ++ v.chars layout depth ++ moreItems layout depth vs

/-- The fields of an object after the first. -/
def moreFields (layout : Layout) (depth : Nat) : List (String × Value) → List Char
  | [] => []
  | (key, v) :: fs =>
    ',' :: layout.gap depth ++ stringChars key ++ layout.colon ++ v.chars layout depth ++ moreFields layout depth fs

end

/-- The value without blanks. -/
def compact (v : Value) : String := String.ofList (v.chars .compact 0)

/-- The value with a line for every part. -/
def pretty (v : Value) : String := String.ofList (v.chars .pretty 0)

end Value

end FormulaBar.Json
