import FormulaBar.Json.Printer
import FormulaBar.Text.Quoted
import FormulaBar.Token.Basic

/-!
# FormulaBar.Token.Json — tokens as JSON

A token is an object with its `id`, its `kind` and a `value`, or for a tag a `label`. Other fields are allowed and a
field that counts may occur only once. Only one fault is told apart: a value that should be an operator and is another
string.
-/

namespace FormulaBar

/-- Why JSON is no token. -/
inductive TokenJsonError
  | malformed
  | unknownOperator (text : String)
deriving DecidableEq, Repr

namespace TokenJsonError

/-- The text of an error that is told apart. -/
def message? : TokenJsonError → Option String
  | malformed => none
  | unknownOperator text => some ("unknown operator: " ++ Text.quoted text)

end TokenJsonError

namespace TokenData

/-- The fields that tell what a token holds. -/
def jsonFields : TokenData → List (String × Json.Value)
  | number value => [("kind", .string "number"), ("value", .number (.float value))]
  | operand value => [("kind", .string "operand"), ("value", .string value.symbol.toString)]
  | tag label => [("kind", .string "tag"), ("label", .string label)]

/-- The operator that the fields named `value` give. -/
def operatorOfJson : List Json.Value → Except TokenJsonError Operator
  | .string text :: more =>
    match Operator.ofChars? text.toList with
    | none => .error (.unknownOperator text)
    | some op => if more.isEmpty then .ok op else .error .malformed
  | _ => .error .malformed

/-- What fields tell a token to hold. A kind may be given by its place in the order number, operator, tag. -/
def ofJsonFields (fields : List (String × Json.Value)) : Except TokenJsonError TokenData :=
  match Json.Value.onlyField? "kind" fields with
  | some (.string "number") | some (.number (.natural 0)) =>
    match Json.Value.onlyField? "value" fields with
    | some (.number n) => .ok (number n.toFloat)
    | _ => .error .malformed
  | some (.string "operand") | some (.number (.natural 1)) =>
    (operatorOfJson (Json.Value.fieldsNamed "value" fields)).map operand
  | some (.string "tag") | some (.number (.natural 2)) =>
    match Json.Value.onlyField? "label" fields with
    | some (.string label) => .ok (tag label)
    | _ => .error .malformed
  | _ => .error .malformed

end TokenData

namespace Token

/-- A token as JSON. -/
def toJson (t : Token) : Json.Value :=
  .object (("id", .number (.natural t.id.raw.toNat)) :: t.data.jsonFields)

/-- The token that a JSON value is. -/
def ofJson : Json.Value → Except TokenJsonError Token
  | .object fields =>
    match Json.Value.onlyField? "id" fields with
    | some (.number (.natural n)) => (TokenData.ofJsonFields fields).map (⟨⟨UInt64.ofNat n⟩, ·⟩)
    | _ => .error .malformed
  | _ => .error .malformed

/-- The token that an item of the outermost array is. -/
def ofItem (d : Json.Document) : Except TokenJsonError Token :=
  match d.itemValue? with
  | some v => ofJson v
  | none => .error .malformed

/-- The tokens of a text that is a JSON array of them. The first item that is no token decides the error, even if the
text goes wrong after it. -/
def listOfChars (cs : List Char) : Except TokenJsonError (List Token) := do
  match Json.Document.itemsOfChars? cs with
  | none => .error .malformed
  | some (items, complete) =>
    let tokens ← items.mapM ofItem
    if complete then .ok tokens else .error .malformed

end Token

end FormulaBar
