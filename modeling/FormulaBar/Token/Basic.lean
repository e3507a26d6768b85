import FormulaBar.Number
import FormulaBar.Operator
import FormulaBar.Text.Blank

/-!
# FormulaBar.Token.Basic — the committed pieces of a formula

A formula is a row of tokens: numbers, operators and tags, which stand for variables. Each token has an id of its own,
so that one in the middle can be removed or relabelled. Ids come from a supply that never hands out the same one twice
and steps over the ids of tokens that were loaded.
-/

namespace FormulaBar

/-- The id of a token. -/
structure TokenId where
  raw : UInt64
deriving DecidableEq, Repr

namespace TokenId

/-- The greatest id, which no loaded token may have: the supply could not step over it. -/
def greatest : TokenId := ⟨18446744073709551615⟩

/-- An id as a reader sees it. -/
def text (id : TokenId) : String := "#" ++ toString id.raw.toNat

end TokenId

/-- Hands out ids in ascending order; the first is 1. -/
structure IdSupply where
  next : UInt64 := 1
deriving DecidableEq, Repr

namespace IdSupply

/-- A fresh id. The supply is a word and counts round. -/
def fresh (ids : IdSupply) : TokenId × IdSupply := (⟨ids.next⟩, ⟨ids.next + 1⟩)

/-- Steps over an id that is in use elsewhere; the greatest stays where it is. -/
def reserve (ids : IdSupply) (id : TokenId) : IdSupply :=
  ⟨max ids.next (if id = .greatest then id.raw else id.raw + 1)⟩

end IdSupply

/-- What a token holds. -/
inductive TokenData
  | number (value : Float)
  | operand (value : Operator)
  | tag (label : String)

namespace TokenData

/-- The text that a reader sees. -/
def display : TokenData → String
  | number value => Number.text value
  | operand value => value.symbol.toString
  | tag label => label

/-- The text to edit: a tag has its mark in front again. -/
def editText (mark : Char) : TokenData → String
  | number value => Number.text value
  | operand value => value.symbol.toString
  | tag label => mark.toString ++ label

end TokenData

/-- A token of a formula. -/
structure Token where
  id : TokenId
  data : TokenData

end FormulaBar
