import FormulaBar.Json.Document

/-!
# FormulaBar.Json.Value — what a JSON document means

A value has proper strings and numbers. A document has one only if every half of a surrogate pair has its other half,
every number fits a double, and its arrays and objects are nested less than 128 deep.
-/

namespace FormulaBar.Json

/-- A JSON value; the fields of an object keep their order, and a name may occur twice. -/
inductive Value
  | null
  | bool (b : Bool)
  | number (n : Number)
  | string (s : String)
  | array (items : List Value)
  | object (fields : List (String × Value))

/-- The first halves of surrogate pairs. -/
def isHighSurrogate (unit : Nat) : Bool := 0xd800 ≤ unit && unit ≤ 0xdbff

/-- The second halves of surrogate pairs. -/
def isLowSurrogate (unit : Nat) : Bool := 0xdc00 ≤ unit && unit ≤ 0xdfff

/-- The characters that the units of a string are; nothing when half of a surrogate pair is left alone. -/
def charsOfUnits? : List StringUnit → Option (List Char)
  | [] => some []
  | .char c :: us => (charsOfUnits? us).map (c :: ·)
  | .code high :: .code low :: us =>
    if isHighSurrogate high then
      if isLowSurrogate low then
        (charsOfUnits? us).map (Char.ofNat (0x10000 + (high - 0xd800) * 0x400 + (low - 0xdc00)) :: ·)
      else none
    else if isLowSurrogate high then none
    else (charsOfUnits? (.code low :: us)).map (Char.ofNat high :: ·)
  | .code unit :: us =>
    if isHighSurrogate unit || isLowSurrogate unit then none
    else (charsOfUnits? us).map (Char.ofNat unit :: ·)

/-- The string that units are. -/
def stringOfUnits? (us : List StringUnit) : Option String := (charsOfUnits? us).map String.ofList

/-- Arrays and objects have to be nested less deep than this. -/
def maxNesting : Nat := 128

mutual

/-- The value of a document that may hold arrays and objects nested `depth` deep. -/
def Document.valueWithin? (depth : Nat) : Document → Option Value
  | .null => some .null
  | .bool b => some (.bool b)
  | .number literal => literal.value?.map .number
  | .string units => (stringOfUnits? units).map .string
  | .array items => if depth = 0 then none else (valuesWithin? (depth - 1) items).map .array
  | .object fields => if depth = 0 then none else (fieldsWithin? (depth - 1) fields).map .object

/-- The values of the items of an array. -/
def valuesWithin? (depth : Nat) : List Document → Option (List Value)
  | [] => some []
  | d :: ds => do return (← d.valueWithin? depth) :: (← valuesWithin? depth ds)

/-- The names and values of the fields of an object. -/
def fieldsWithin? (depth : Nat) : List (List StringUnit × Document) → Option (List (String × Value))
  | [] => some []
  | (key, d) :: fs => do return (← stringOfUnits? key, ← d.valueWithin? depth) :: (← fieldsWithin? depth fs)

end

/-- The value of a whole document. -/
def Document.value? (d : Document) : Option Value := d.valueWithin? (maxNesting - 1)

/-- The value of a document that is an item of the outermost array. -/
def Document.itemValue? (d : Document) : Option Value := d.valueWithin? (maxNesting - 2)

namespace Value

/-- The value that a text is. -/
def ofChars? (cs : List Char) : Option Value := (Document.ofChars? cs).bind Document.value?

/-- The values of the fields of this name, in their order. -/
def fieldsNamed (name : String) (fields : List (String × Value)) : List Value :=
  (fields.filter (·.1 = name)).map (·.2)

/-- The value of the field of this name, when there is exactly one. -/
def onlyField? (name : String) (fields : List (String × Value)) : Option Value :=
  match fieldsNamed name fields with
  | [v] => some v
  | _ => none

end Value

end FormulaBar.Json
