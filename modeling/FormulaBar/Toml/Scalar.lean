import FormulaBar.Decimal.Literal
import FormulaBar.Text.Hexadecimal
import FormulaBar.Toml.Table

/-!
# FormulaBar.Toml.Scalar — strings, numbers and dates of TOML

Each reader takes its construct off the front of a text and gives the rest; it gives nothing when the text does not
start with a proper one.
-/

namespace FormulaBar.Toml

/-! ### Blanks and comments -/

/-- A space or a tab. -/
def isSpace (c : Char) : Bool := c = ' ' || c = '\t'

/-- A character of a comment: a tab, or anything from the space on but DEL. -/
def isText (c : Char) : Bool := c = '\t' || (0x20 ≤ c.toNat && c.toNat ≠ 0x7f)

/-- The text after spaces and tabs. -/
def skipSpaces (cs : List Char) : List Char := cs.dropWhile isSpace

theorem skipSpaces_length (cs : List Char) : (skipSpaces cs).length ≤ cs.length :=
  (List.dropWhile_sublist isSpace).length_le

/-- The text after the end of a line. -/
def lineBreak? : List Char → Option (List Char)
  | '\n' :: cs => some cs
  | '\r' :: '\n' :: cs => some cs
  | _ => none

/-- The text after spaces, tabs and ends of lines. -/
def skipBlankLines : List Char → List Char
  | ' ' :: cs => skipBlankLines cs
  | '\t' :: cs => skipBlankLines cs
  | '\n' :: cs => skipBlankLines cs
  | '\r' :: '\n' :: cs => skipBlankLines cs
  | cs => cs

theorem skipBlankLines_length (cs : List Char) : (skipBlankLines cs).length ≤ cs.length := by
  fun_induction skipBlankLines cs <;> (try simp only [List.length_cons]) <;> omega

theorem lineBreak?_length {cs rest : List Char} (h : lineBreak? cs = some rest) : rest.length < cs.length := by
  unfold lineBreak? at h
  split at h <;> cases h <;> simp only [List.length_cons] <;> omega

/-- The text after a comment, if there is one. -/
def skipComment : List Char → List Char
  | '#' :: cs => cs.dropWhile isText
  | cs => cs

/-- The text of the next line, when nothing but blanks and a comment is left on this one. -/
def finishLine (cs : List Char) : Option (List Char) :=
  match skipComment (skipSpaces cs) with
  | [] => some []
  | rest => lineBreak? rest

/-! ### Strings -/

/-- The character whose code point hexadecimal digits are. -/
def charOfHex? (ds : List Char) : Option Char := do
  let n ← Text.natOfHex? 16 ds
  if h : n.isValidChar then some (Char.ofNatAux n h) else none

/-- The character that a letter after a backslash stands for. -/
def escaped? : Char → Option Char
  | 'b' => some '\x08'
  | 'f' => some '\x0c'
  | 'n' => some '\n'
  | 'r' => some '\r'
  | 't' => some '\t'
  | '\\' => some '\\'
  | '\x22' => some '\x22'
  | _ => none

/-- Reads what stands behind a backslash: the character it means. -/
def escape? : List Char → Option (Char × List Char)
  | [] => none
  | 'u' :: a :: b :: c :: d :: cs => (charOfHex? [a, b, c, d]).map (·, cs)
  | 'U' :: a :: b :: c :: d :: e :: f :: g :: h :: cs => (charOfHex? [a, b, c, d, e, f, g, h]).map (·, cs)
  | c :: cs => (escaped? c).map (·, cs)

/-- Reads what stands behind a backslash in a string of several lines. At the end of a line it means nothing, and the
blanks and line ends after it go with it. -/
def longEscape? (cs : List Char) : Option (List Char × List Char) :=
  match lineBreak? (skipSpaces cs) with
  | some rest => some ([], skipBlankLines rest)
  | none => (escape? cs).map fun (c, rest) => ([c], rest)

theorem escape?_length {cs rest : List Char} {c : Char} (h : escape? cs = some (c, rest)) :
    rest.length < cs.length := by
  unfold escape? at h
  split at h
  · cases h
  all_goals
    obtain ⟨_, _, h⟩ := Option.map_eq_some_iff.1 h
    cases h
    simp only [List.length_cons]
    omega

theorem longEscape?_length {cs rest chars : List Char} (h : longEscape? cs = some (chars, rest)) :
    rest.length < cs.length := by
  unfold longEscape? at h
  split at h
  · rename_i rest' hbreak
    cases h
    have h₁ := lineBreak?_length hbreak
    have h₂ := skipBlankLines_length rest'
    have h₃ := skipSpaces_length cs
    omega
  · obtain ⟨⟨c, rest'⟩, hc, h⟩ := Option.map_eq_some_iff.1 h
    cases h
    exact escape?_length hc

/-- Puts a character in front of a string that was read. -/
def consTo (c : Char) (r : List Char × List Char) : List Char × List Char := (c :: r.1, r.2)

/-- Reads a string on one line, from behind its opening quote. -/
def basicString (cs : List Char) : Option (List Char × List Char) :=
  match cs with
  | [] => none
  | '\x22' :: cs => some ([], cs)
  | '\\' :: cs =>
    match _h : escape? cs with
    | some (c, rest) => (basicString rest).map (consTo c)
    | none => none
  | c :: cs => if isText c then (basicString cs).map (consTo c) else none
termination_by cs.length
decreasing_by
  · have := escape?_length _h
    rw [List.length_cons]; omega
  · rw [List.length_cons]; omega

/-- Reads a string without escapes on one line, from behind its opening quote. -/
def literalString (cs : List Char) : Option (List Char × List Char) :=
  let inside := fun c => isText c && c ≠ '\x27'
  match cs.dropWhile inside with
  | '\x27' :: rest => some (cs.takeWhile inside, rest)
  | _ => none

/-- Ends a string of several lines: up to two more quotes belong to it. -/
def finishLong (quote : Char) : List Char → List Char × List Char
  | a :: b :: cs =>
    if a = quote then (if b = quote then ([quote, quote], cs) else ([quote], b :: cs)) else ([], a :: b :: cs)
  | [a] => if a = quote then ([quote], []) else ([], [a])
  | [] => ([], [])

/-- Reads a string of several lines, from behind its opening quotes and the end of line after them. -/
def longBasicString (cs : List Char) : Option (List Char × List Char) :=
  match cs with
  | [] => none
  | '\x22' :: '\x22' :: '\x22' :: cs => some (finishLong '\x22' cs)
  | '\\' :: cs =>
    match _h : longEscape? cs with
    | some (chars, rest) => (longBasicString rest).map fun r => (chars ++ r.1, r.2)
    | none => none
  | '\n' :: cs => (longBasicString cs).map (consTo '\n')
  | '\r' :: '\n' :: cs => (longBasicString cs).map (consTo '\n')
  | c :: cs => if isText c then (longBasicString cs).map (consTo c) else none
termination_by cs.length
decreasing_by
  · have := longEscape?_length _h
    rw [List.length_cons]; omega
  all_goals (simp only [List.length_cons]; omega)

/-- Reads a string of several lines without escapes, from behind its opening quotes and the end of line after them. -/
def longLiteralString : List Char → Option (List Char × List Char)
  | [] => none
  | '\x27' :: '\x27' :: '\x27' :: cs => some (finishLong '\x27' cs)
  | '\n' :: cs => (longLiteralString cs).map (consTo '\n')
  | '\r' :: '\n' :: cs => (longLiteralString cs).map (consTo '\n')
  | c :: cs => if isText c then (longLiteralString cs).map (consTo c) else none

/-- The text after the end of line that may follow the opening quotes of a string of several lines. -/
def skipFirstBreak (cs : List Char) : List Char := (lineBreak? cs).getD cs

/-- Reads a string of any of the four kinds. -/
def string? : List Char → Option (List Char × List Char)
  | '\x22' :: '\x22' :: '\x22' :: cs => longBasicString (skipFirstBreak cs)
  | '\x22' :: cs => basicString cs
  | '\x27' :: '\x27' :: '\x27' :: cs => longLiteralString (skipFirstBreak cs)
  | '\x27' :: cs => literalString cs
  | _ => none

/-! ### Numbers -/

/-- Digits in which single underscores may stand between two digits, without the underscores. -/
def ungrouped? (isDigit : Char → Bool) (cs : List Char) : Option (List Char) :=
  match cs with
  | [] => none
  | [c] => if isDigit c then some [c] else none
  | c :: '_' :: cs => if isDigit c then (ungrouped? isDigit cs).map (c :: ·) else none
  | c :: cs => if isDigit c then (ungrouped? isDigit cs).map (c :: ·) else none

/-- Reads digits with underscores. -/
def digits? (isDigit : Char → Bool) (cs : List Char) : Option (List Char × List Char) :=
  let inside := fun c => isDigit c || c = '_'
  (ungrouped? isDigit (cs.takeWhile inside)).map (·, cs.dropWhile inside)

/-- A whole number that fits a signed word. -/
def integer? (n : Int) : Option Value :=
  if -0x8000000000000000 ≤ n && n < 0x8000000000000000 then some (.integer n) else none

/-- Reads a whole number in another base, from behind the letter that names the base. -/
def based? (base : Nat) (isDigit : Char → Bool) (cs : List Char) : Option (Value × List Char) := do
  let (ds, rest) ← digits? isDigit cs
  let n ← Text.natOfHex? base ds
  return (← integer? n, rest)

/-- Reads a fraction, if a point follows. -/
def fraction? : List Char → Option (List Char × List Char)
  | '.' :: cs => (digits? Char.isDigit cs).map fun (ds, rest) => ('.' :: ds, rest)
  | cs => some ([], cs)

/-- Reads a power of ten, if its mark follows. -/
def power? : List Char → Option (List Char × List Char)
  | [] => some ([], [])
  | c :: cs =>
    if c = 'e' || c = 'E' then
      let (negative, rest) := Decimal.splitSign cs
      (digits? Char.isDigit rest).map fun (ds, rest) => ('e' :: (if negative then '-' else '+') :: ds, rest)
    else some ([], c :: cs)

/-- Reads a decimal number from behind its sign. A whole number has to fit a signed word. Too large a number is refused
unless it is negative. -/
def decimal? (negative : Bool) (cs : List Char) : Option (Value × List Char) := do
  let (whole, rest) ← digits? Char.isDigit cs
  if whole.head? = some '0' && whole.length ≠ 1 then none
  let (fraction, rest) ← fraction? rest
  let (power, rest) ← power? rest
  if fraction.isEmpty && power.isEmpty then
    let n : Int := Decimal.natOfDigits whole
    return (← integer? (if negative then -n else n), rest)
  let d ← Decimal.ofLiteral? (whole ++ fraction ++ power)
  if !negative && d.magnitude = Binary64.infinity then none
  return (.float { d with negative }.toFloat, rest)

/-- Reads a number. -/
def number? (cs : List Char) : Option (Value × List Char) :=
  match cs with
  | '0' :: 'x' :: rest => based? 16 (fun c => (Text.hexDigit? c).isSome) rest
  | '0' :: 'o' :: rest => based? 8 (fun c => '0' ≤ c && c ≤ '7') rest
  | '0' :: 'b' :: rest => based? 2 (fun c => c = '0' || c = '1') rest
  | cs =>
    let (negative, unsigned) := Decimal.splitSign cs
    match unsigned with
    | 'i' :: 'n' :: 'f' :: rest => some (.float (Binary64.ofMagnitude negative Binary64.infinity), rest)
    | 'n' :: 'a' :: 'n' :: rest => some (.float (Binary64.ofMagnitude negative Binary64.nan), rest)
    | unsigned => decimal? negative unsigned

/-! ### Dates and times -/

/-- Reads a number of so many digits that lies in a range. -/
def field? (width low high : Nat) (cs : List Char) : Option (Nat × List Char) :=
  let ds := cs.take width
  let n := Decimal.natOfDigits ds
  if ds.length = width && ds.all Char.isDigit && low ≤ n && n ≤ high then some (n, cs.drop width) else none

/-- The text after a character that has to come next. -/
def expect (c : Char) : List Char → Option (List Char)
  | [] => none
  | d :: cs => if d = c then some cs else none

/-- Number of days in a month. -/
def daysIn (year month : Nat) : Nat :=
  if month = 2 then
    if year % 4 = 0 && (year % 100 ≠ 0 || year % 400 = 0) then 29 else 28
  else if month = 4 || month = 6 || month = 9 || month = 11 then 30
  else 31

/-- The text after a date. -/
def date? (cs : List Char) : Option (List Char) := do
  let (year, rest) ← field? 4 0 9999 cs
  let (month, rest) ← field? 2 1 12 (← expect '-' rest)
  let (_, rest) ← field? 2 1 (daysIn year month) (← expect '-' rest)
  return rest

/-- The text after a time of day. The second may be a leap second. -/
def time? (cs : List Char) : Option (List Char) := do
  let (_, rest) ← field? 2 0 23 cs
  let (_, rest) ← field? 2 0 59 (← expect ':' rest)
  let (_, rest) ← field? 2 0 60 (← expect ':' rest)
  match rest with
  | '.' :: c :: more => return if c.isDigit then more.dropWhile Char.isDigit else rest
  | _ => return rest

/-- The text after a distance from universal time. -/
def offset? : List Char → Option (List Char)
  | 'Z' :: cs => some cs
  | 'z' :: cs => some cs
  | c :: cs => do
    if c ≠ '+' && c ≠ '-' then none
    let (_, rest) ← field? 2 0 23 cs
    let (_, rest) ← field? 2 0 59 (← expect ':' rest)
    return rest
  | [] => none

/-- The text after a time of day and, if there is one, its distance from universal time. -/
def zonedTime? (cs : List Char) : Option (List Char) :=
  (time? cs).map fun rest => (offset? rest).getD rest

/-- The text after a date, a time, or both. -/
def dateTime? (cs : List Char) : Option (List Char) :=
  match date? cs with
  | some (c :: rest) =>
    if c = 'T' || c = 't' || c = ' ' then some ((zonedTime? rest).getD (c :: rest)) else some (c :: rest)
  | some [] => some []
  | none => time? cs

end FormulaBar.Toml
