import FormulaBar.Toml.Scalar

/-!
# FormulaBar.Toml.Document — reading a TOML text

A text is read line by line: blank lines and comments, headers, and keys with values. Arrays and inline tables may be
nested up to 79 deep, and a dotted key may have up to 79 parts. Any fault anywhere refuses the whole text.
-/

namespace FormulaBar.Toml

/-- Arrays and inline tables are nested at most this deep; keys have at most so many parts. -/
def maxNesting : Nat := 79

/-! ### Keys -/

/-- A character of a key without quotes. -/
def isBare (c : Char) : Bool := c.isAlphanum || c = '_' || c = '-'

/-- Reads one part of a key. -/
def keyPart? : List Char → Option (String × List Char)
  | '\x22' :: cs => (basicString cs).map fun (s, rest) => (String.ofList s, rest)
  | '\x27' :: cs => (literalString cs).map fun (s, rest) => (String.ofList s, rest)
  | cs =>
    match cs.takeWhile isBare with
    | [] => none
    | part => some (String.ofList part, cs.dropWhile isBare)

/-- Reads a key: parts with points between them, at most `room` of them, and the blanks around each. -/
def keyWithin? : Nat → List Char → Option (List String × List Char)
  | 0, _ => none
  | room + 1, cs => do
    let (part, rest) ← keyPart? (skipSpaces cs)
    match skipSpaces rest with
    | '.' :: rest => do
      let (parts, rest) ← keyWithin? room rest
      return (part :: parts, rest)
    | rest => return ([part], rest)

/-- Reads a key. -/
def key? (cs : List Char) : Option (List String × List Char) := keyWithin? maxNesting cs

/-! ### Values -/

/-- The text after blanks, comments and ends of lines, as they may stand inside an array. -/
def skipFiller (cs : List Char) : List Char :=
  match _h : skipBlankLines cs with
  | '#' :: rest => skipFiller (rest.dropWhile isText)
  | rest => rest
termination_by cs.length
decreasing_by
  have h₁ := skipBlankLines_length cs
  have h₂ := (List.dropWhile_sublist isText (l := rest)).length_le
  rw [_h] at h₁
  simp only [List.length_cons] at h₁
  omega

/-- Reads the items of an array up to its end, given the reader of one item. -/
def items? (item : List Char → Option (Value × List Char)) (cs : List Char) : Option (List Value × List Char) :=
  match skipFiller cs with
  | ']' :: rest => some ([], rest)
  | start =>
    match item start with
    | none => none
    | some (v, rest) =>
      match skipFiller rest with
      | ']' :: rest => some ([v], rest)
      | ',' :: rest =>
        if rest.length < cs.length then (items? item rest).map fun (vs, rest) => (v :: vs, rest) else none
      | _ => none
termination_by cs.length

/-- Reads a key and its value. -/
def keyValue? (item : List Char → Option (Value × List Char)) (cs : List Char) :
    Option ((List String × Value) × List Char) := do
  let (key, rest) ← key? cs
  let (v, rest) ← item (skipSpaces (← expect '=' rest))
  return ((key, v), skipSpaces rest)

/-- Reads the fields of an inline table that follow `fields` up to its end. -/
def moreFields? (item : List Char → Option (Value × List Char)) (fields : Fields) (cs : List Char) :
    Option (Fields × List Char) :=
  match keyValue? item cs with
  | none => none
  | some ((key, v), rest) =>
    match Fields.insert key v false fields, rest with
    | some fields, '\x7d' :: rest => some (fields, rest)
    | some fields, ',' :: rest => if rest.length < cs.length then moreFields? item fields rest else none
    | _, _ => none
termination_by cs.length

/-- Reads an inline table from behind its opening brace. -/
def inlineTable? (item : List Char → Option (Value × List Char)) (cs : List Char) : Option (Value × List Char) :=
  match skipSpaces cs with
  | '\x7d' :: rest => some (.table [], rest)
  | start => (moreFields? item [] start).map fun (fields, rest) => (.table (closeFields fields), rest)

/-- Reads a value that may hold arrays and inline tables nested `room` deep. -/
def valueWithin? (room : Nat) (cs : List Char) : Option (Value × List Char) :=
  match cs with
  | '[' :: rest =>
    match room with
    | 0 => none
    | room + 1 => (items? (valueWithin? room) rest).map fun (vs, rest) => (.array vs, rest)
  | '\x7b' :: rest =>
    match room with
    | 0 => none
    | room + 1 => inlineTable? (valueWithin? room) rest
  | 't' :: 'r' :: 'u' :: 'e' :: rest => some (.bool true, rest)
  | 'f' :: 'a' :: 'l' :: 's' :: 'e' :: rest => some (.bool false, rest)
  | cs =>
    match string? cs with
    | some (s, rest) => some (.string (String.ofList s), rest)
    | none =>
      match dateTime? cs with
      | some rest => some (.dateTime, rest)
      | none => number? cs

/-! ### Lines -/

/-- The tables as far as they have been read, and the path of the one that lines add to. -/
structure Builder where
  fields : Fields := []
  current : List String := []

namespace Builder

/-- Adds a value under a key to the current table. -/
def insert (b : Builder) (key : List String) (v : Value) : Option Builder :=
  (Fields.modify false (Fields.insert key v) b.current false b.fields).map fun fields => { b with fields }

/-- Reads a header from behind its opening brackets. -/
def header? (b : Builder) (array : Bool) (cs : List Char) : Option (Builder × List Char) := do
  let (key, rest) ← key? cs
  let rest ← expect ']' rest
  let rest ← if array then expect ']' rest else some rest
  let fields ← if array then Fields.openTables key b.fields else Fields.openTable key b.fields
  return ({ fields, current := key }, ← finishLine rest)

/-- Reads one line that is not empty. -/
def line? (b : Builder) (cs : List Char) : Option (Builder × List Char) :=
  match cs with
  | '#' :: _ => (finishLine cs).map (b, ·)
  | '\n' :: _ => (lineBreak? cs).map (b, ·)
  | '\r' :: _ => (lineBreak? cs).map (b, ·)
  | '[' :: '[' :: rest => b.header? true rest
  | '[' :: rest => b.header? false rest
  | cs => do
    let ((key, v), rest) ← keyValue? (valueWithin? maxNesting) cs
    return (← b.insert key v, ← finishLine rest)

/-- Reads all lines. -/
def lines? (b : Builder) (cs : List Char) : Option Builder :=
  match skipSpaces cs with
  | [] => some b
  | start =>
    match b.line? start with
    | none => none
    | some (b, rest) => if rest.length < cs.length then b.lines? rest else none
termination_by cs.length

end Builder

/-- The fields of the table that a text is. A byte order mark in front counts for nothing. -/
def ofChars? (cs : List Char) : Option (List (String × Value)) :=
  let text := match cs with
    | '\ufeff' :: rest => rest
    | cs => cs
  (Builder.lines? {} text).map fun b => closeFields b.fields

end FormulaBar.Toml
