import FormulaBar.Token.Basic

/-!
# FormulaBar.Token.Classifier — from typed text to a token

The first rule that fits decides: nothing for a blank text, an operator, a number, a tag behind its mark, and any
other text is a tag by itself. Blanks at either end never count.
-/

namespace FormulaBar

/-- Reads typed text, with the character that marks a tag. -/
structure Classifier where
  mark : Char := '@'
deriving DecidableEq, Repr

namespace Classifier

/-- The text without a mark in front. -/
def unmarked (k : Classifier) : List Char → List Char
  | [] => []
  | c :: cs => if c = k.mark then cs else c :: cs

/-- The label of the tag that a text names: what follows the mark, or all of it when nothing follows. -/
def labelOf (k : Classifier) (cs : List Char) : List Char :=
  match cs with
  | [] => []
  | c :: rest => if c = k.mark && Text.trim rest ≠ [] then Text.trim rest else cs

/-- The token that a text without blanks at either end stands for. -/
def ofTrimmed (k : Classifier) (cs : List Char) : TokenData :=
  match Operator.ofChars? cs with
  | some op => .operand op
  | none =>
    match Number.ofChars? cs with
    | some value => .number value
    | none => .tag (String.ofList (k.labelOf cs))

/-- The token that a text stands for; a blank text stands for none. -/
def classify (k : Classifier) (text : String) : Option TokenData :=
  let cs := Text.trim text.toList
  if cs = [] then none else some (k.ofTrimmed cs)

end Classifier

end FormulaBar
