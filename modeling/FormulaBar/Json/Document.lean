import FormulaBar.Json.Lexeme

/-!
# FormulaBar.Json.Document — the structure of a JSON text

A document is a text's structure with strings and numbers as they are written. It is built word by word: `Reading` says
what has been read and what may follow, and `Reading.step` takes one word. A text that breaks off or goes wrong has no
document, but the items that its outermost array held up to there are known (`items`).
-/

namespace FormulaBar.Json

/-- The structure of a JSON text. -/
inductive Document
  | null
  | bool (b : Bool)
  | number (literal : NumberLiteral)
  | string (units : List StringUnit)
  | array (items : List Document)
  | object (fields : List (List StringUnit × Document))

/-- An array or object that has been opened: what it holds so far, latest first. A field's key awaits its value. -/
inductive Frame
  | array (items : List Document)
  | object (fields : List (List StringUnit × Document)) (key : List StringUnit)

/-- What has been read, innermost frame first, and what may follow. -/
inductive Reading
  | value (frames : List Frame)
  | itemOrEnd (frames : List Frame)
  | keyOrEnd (frames : List Frame)
  | key (fields : List (List StringUnit × Document)) (frames : List Frame)
  | colon (fields : List (List StringUnit × Document)) (key : List StringUnit) (frames : List Frame)
  | after (document : Document) (frames : List Frame)

namespace Reading

/-- Takes a word where a value may stand. -/
def stepValue (frames : List Frame) : Lexeme → Option Reading
  | .null => some (after .null frames)
  | .bool b => some (after (.bool b) frames)
  | .number literal => some (after (.number literal) frames)
  | .string units => some (after (.string units) frames)
  | .openArray => some (itemOrEnd frames)
  | .openObject => some (keyOrEnd frames)
  | _ => none

/-- Takes a word after a value inside `frame`. -/
def stepAfter (document : Document) (frames : List Frame) : Frame → Lexeme → Option Reading
  | .array items, .comma => some (value (.array (document :: items) :: frames))
  | .array items, .closeArray => some (after (.array (document :: items).reverse) frames)
  | .object fields name, .comma => some (key ((name, document) :: fields) frames)
  | .object fields name, .closeObject => some (after (.object ((name, document) :: fields).reverse) frames)
  | _, _ => none

/-- Takes a word; nothing when it may not stand there. -/
def step : Reading → Lexeme → Option Reading
  | value frames, t => stepValue frames t
  | itemOrEnd frames, .closeArray => some (after (.array []) frames)
  | itemOrEnd frames, t => stepValue (.array [] :: frames) t
  | keyOrEnd frames, .closeObject => some (after (.object []) frames)
  | keyOrEnd frames, .string name => some (colon [] name frames)
  | key fields frames, .string name => some (colon fields name frames)
  | colon fields name frames, .colon => some (value (.object fields name :: frames))
  | after document (frame :: frames), t => stepAfter document frames frame t
  | _, _ => none

/-- Takes words up to the first that may not stand where it does, and says whether there is none. -/
def run (r : Reading) : List Lexeme → Reading × Bool
  | [] => (r, true)
  | t :: ts =>
    match r.step t with
    | some r => r.run ts
    | none => (r, false)

/-- The document, when all of it has been read. -/
def document? : Reading → Option Document
  | after document [] => some document
  | _ => none

/-- The frames of what has been read, innermost first, with the value that was read last inside its frame. -/
def frames : Reading → List Frame
  | value frames => frames
  | itemOrEnd frames => .array [] :: frames
  | keyOrEnd frames => .object [] [] :: frames
  | key fields frames => .object fields [] :: frames
  | colon fields name frames => .object fields name :: frames
  | after document (.array items :: frames) => .array (document :: items) :: frames
  | after _ frames => frames

/-- The items of the outermost array that have been read; nothing when there is no outermost array. -/
def items? (r : Reading) : Option (List Document) :=
  match r.document? with
  | some (.array items) => some items
  | some _ => none
  | none =>
    match r.frames.getLast? with
    | some (.array items) => some items.reverse
    | _ => none

end Reading

namespace Document

/-- What can be read of a text, and whether that is all of it. -/
def read (cs : List Char) : Reading × Bool :=
  let (ts, lexed) := lexemes cs
  let (r, fits) := (Reading.value []).run ts
  (r, lexed && fits)

/-- The document at the front of a text, and whether the text is nothing else. -/
def front? (cs : List Char) : Option (Document × Bool) :=
  let (r, complete) := read cs
  r.document?.map (·, complete)

/-- The document that a text is. -/
def ofChars? (cs : List Char) : Option Document :=
  match front? cs with
  | some (d, true) => some d
  | _ => none

/-- The items of the array that a text starts with, and whether the text is that array and nothing else. -/
def itemsOfChars? (cs : List Char) : Option (List Document × Bool) :=
  let (r, complete) := read cs
  r.items?.map (·, complete && r.document?.isSome)

end Document

end FormulaBar.Json
