import FormulaBar.Text.CaseTable
import FormulaBar.Text.Property

/-!
# FormulaBar.Text.Case — lower case

`lower` maps every character to its lower case. Two characters need more than the table: a capital I with a dot
becomes two characters, and a capital sigma that ends a word becomes the final sigma.
-/

namespace FormulaBar.Text

/-- The lower case of one character, where that is one character. -/
def lowerChar (c : Char) : Char :=
  if c.toNat < 0x80 then c.toLower
  else
    match loweringRanges.find? fun (first, last, step, _) =>
        first ≤ c.toNat && c.toNat ≤ last && (c.toNat - first) % step = 0 with
    | some (first, _, _, start) => Char.ofNat (start + (c.toNat - first))
    | none => c

/-- The character has letter case. -/
def isCased : Char → Bool := holdsAt casedBoundaries

/-- The character is passed over when looking for the letters next to another. -/
def isCaseIgnorable : Char → Bool := holdsAt caseIgnorableBoundaries

/-- The first character that counts has letter case. -/
def startsCased (cs : List Char) : Bool :=
  match cs.dropWhile isCaseIgnorable with
  | c :: _ => isCased c
  | [] => false

/-- Lower case of a text whose preceding characters, nearest first, are `before`. -/
def lowerAfter (before : List Char) : List Char → List Char
  | [] => []
  | c :: cs =>
    let here :=
      if c = 'Σ' then [if startsCased before && !startsCased cs then 'ς' else 'σ']
      else if c = 'İ' then ['i', '\u0307']
      else [lowerChar c]
    here ++ lowerAfter (c :: before) cs

/-- The lower case of a text. -/
def lower (cs : List Char) : List Char := lowerAfter [] cs

/-- `part` occurs in `whole` as one piece. -/
def contains (whole part : List Char) : Bool :=
  match whole with
  | [] => part.isEmpty
  | _ :: rest => part.isPrefixOf whole || contains rest part

end FormulaBar.Text
