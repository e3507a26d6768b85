import FormulaBar.Text.PrintableTable
import FormulaBar.Text.Property

/-!
# FormulaBar.Text.Quoted — characters and strings quoted for messages

A message shows foreign text between quotes so that every character can be told: the quote itself and the backslash
are escaped, NUL, tab, line feed and carriage return have short forms, and what has no glyph of its own is written as
its code point in hexadecimal between braces.
-/

namespace FormulaBar.Text

/-- The code point in hexadecimal, between braces. -/
def escapeCodePoint (c : Char) : List Char :=
  ['\\', 'u', '\x7b'] ++ Nat.toDigits 16 c.toNat ++ ['\x7d']

/-- The letters that show nothing: they stand for a missing part of a Hangul syllable. -/
def fillers : List Char := ['\u115f', '\u1160', '\u3164', '\uffa0']

/-- The sound marks of halfwidth kana. They extend the letter before them, but in a cell of their own. -/
def halfwidthSoundMarks : List Char := ['\uff9e', '\uff9f']

/-- A character that is seen on its own. -/
def hasGlyph (c : Char) : Bool :=
  !(holdsAt unprintableBoundaries c || c ∈ fillers) &&
    (!holdsAt graphemeExtendBoundaries c || c ∈ halfwidthSoundMarks)

/-- A character inside a quotation that `quote` ends. -/
def escapeChar (quote c : Char) : List Char :=
  if c = '\x00' then ['\\', '0']
  else if c = '\t' then ['\\', 't']
  else if c = '\r' then ['\\', 'r']
  else if c = '\n' then ['\\', 'n']
  else if c = '\\' || c = quote then ['\\', c]
  else if hasGlyph c then [c]
  else escapeCodePoint c

/-- A character between single quotes. -/
def quotedChar (c : Char) : String := String.ofList ('\x27' :: escapeChar '\x27' c ++ ['\x27'])

/-- A string between double quotes. -/
def quoted (s : String) : String := String.ofList ('\x22' :: s.toList.flatMap (escapeChar '\x22') ++ ['\x22'])

end FormulaBar.Text
