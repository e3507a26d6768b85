import FormulaBar.Json.Number
import FormulaBar.Text.Blank
import FormulaBar.Text.Hexadecimal

/-!
# FormulaBar.Json.Lexeme — the words of JSON

Text is cut into six marks, three names, strings and numbers, with blanks between them that count for nothing. A string
is kept as it is written, with escaped code units told from characters, so that a value that nobody reads may hold
half a surrogate pair.
-/

namespace FormulaBar.Json

/-- A character of a string, or a code unit that was written in hexadecimal. -/
inductive StringUnit
  | char (c : Char)
  | code (unit : Nat)
deriving DecidableEq, Repr

/-- A word of JSON. -/
inductive Lexeme
  | openObject
  | closeObject
  | openArray
  | closeArray
  | colon
  | comma
  | null
  | bool (b : Bool)
  | number (literal : NumberLiteral)
  | string (units : List StringUnit)
deriving DecidableEq, Repr

/-- The character that a letter after a backslash stands for. -/
def escaped? : Char → Option Char
  | '\x22' => some '\x22'
  | '\\' => some '\\'
  | '/' => some '/'
  | 'b' => some '\x08'
  | 'f' => some '\x0c'
  | 'n' => some '\n'
  | 'r' => some '\r'
  | 't' => some '\t'
  | _ => none

/-- Reads a string on from behind its opening quote, and gives what follows the closing one. -/
def readString : List Char → Option (List StringUnit × List Char)
  | [] => none
  | '\x22' :: cs => some ([], cs)
  | '\\' :: 'u' :: a :: b :: c :: d :: cs => do
    let unit ← Text.natOfHex? 16 [a, b, c, d]
    let (units, rest) ← readString cs
    return (.code unit :: units, rest)
  | '\\' :: c :: cs => do
    let c ← escaped? c
    let (units, rest) ← readString cs
    return (.char c :: units, rest)
  | c :: cs =>
    if c.toNat < 0x20 || c = '\\' then none
    else (readString cs).map fun (units, rest) => (.char c :: units, rest)

theorem readString_length {cs : List Char} {units : List StringUnit} {rest : List Char}
    (h : readString cs = some (units, rest)) : rest.length < cs.length := by
  fun_induction readString cs generalizing units rest with
  | case1 => cases h
  | case2 cs => cases h; simp
  | case3 a b c d cs ih =>
    -- an escape is longer than what it stands for, and so is every other step
    simp only [Option.bind_eq_bind, Option.bind_eq_some_iff] at h
    obtain ⟨_, _, ⟨_, _⟩, hr, h⟩ := h
    cases h
    have := ih hr
    simp only [List.length_cons]; omega
  | case4 c cs _ ih =>
    simp only [Option.bind_eq_bind, Option.bind_eq_some_iff] at h
    obtain ⟨_, _, ⟨_, _⟩, hr, h⟩ := h
    cases h
    have := ih hr
    simp only [List.length_cons]; omega
  | case5 => cases h
  | case6 c cs _ _ _ _ ih =>
    obtain ⟨⟨_, _⟩, hr, h⟩ := Option.map_eq_some_iff.1 h
    cases h
    have := ih hr
    simp only [List.length_cons]; omega

/-- Splits digits off; there has to be one. -/
def readDigits (cs : List Char) : Option (List Char × List Char) :=
  match cs.takeWhile Char.isDigit with
  | [] => none
  | ds => some (ds, cs.dropWhile Char.isDigit)

/-- The whole part of a number: a zero stands alone. -/
def readWhole : List Char → Option (List Char × List Char)
  | '0' :: cs => some (['0'], cs)
  | cs => readDigits cs

/-- The fraction of a number, if a point follows. -/
def readFraction : List Char → Option (List Char × List Char)
  | '.' :: cs => readDigits cs
  | cs => some ([], cs)

/-- The power of ten of a number, if its mark follows. -/
def readExponent : List Char → Option (Option (Bool × List Char) × List Char)
  | [] => some (none, [])
  | c :: cs =>
    if c = 'e' || c = 'E' then
      let (negative, rest) := Decimal.splitSign cs
      (readDigits rest).map fun (ds, rest) => (some (negative, ds), rest)
    else some (none, c :: cs)

/-- Reads a number without its sign. -/
def readUnsigned (negative : Bool) (cs : List Char) : Option (NumberLiteral × List Char) := do
  let (whole, rest) ← readWhole cs
  let (fraction, rest) ← readFraction rest
  let (exponent, rest) ← readExponent rest
  return (⟨negative, whole, fraction, exponent⟩, rest)

/-- Reads the word that a text starts with. -/
def readLexeme : List Char → Option (Lexeme × List Char)
  | [] => none
  | '\x7b' :: cs => some (.openObject, cs)
  | '\x7d' :: cs => some (.closeObject, cs)
  | '[' :: cs => some (.openArray, cs)
  | ']' :: cs => some (.closeArray, cs)
  | ':' :: cs => some (.colon, cs)
  | ',' :: cs => some (.comma, cs)
  | 'n' :: 'u' :: 'l' :: 'l' :: cs => some (.null, cs)
  | 't' :: 'r' :: 'u' :: 'e' :: cs => some (.bool true, cs)
  | 'f' :: 'a' :: 'l' :: 's' :: 'e' :: cs => some (.bool false, cs)
  | '\x22' :: cs => (readString cs).map fun (units, rest) => (.string units, rest)
  | '-' :: cs => (readUnsigned true cs).map fun (literal, rest) => (.number literal, rest)
  | cs => (readUnsigned false cs).map fun (literal, rest) => (.number literal, rest)

theorem readDigits_length {cs ds rest : List Char} (h : readDigits cs = some (ds, rest)) :
    rest.length < cs.length := by
  unfold readDigits at h
  split at h
  · cases h
  · rename_i hne
    cases h
    have hlen := congrArg List.length (List.takeWhile_append_dropWhile (p := Char.isDigit) (l := cs))
    have : 0 < (cs.takeWhile Char.isDigit).length := List.length_pos_iff.2 hne
    simp only [List.length_append] at hlen
    omega

theorem readWhole_length {cs ds rest : List Char} (h : readWhole cs = some (ds, rest)) :
    rest.length < cs.length := by
  unfold readWhole at h
  split at h
  · cases h; simp
  · exact readDigits_length h

theorem readFraction_length {cs ds rest : List Char} (h : readFraction cs = some (ds, rest)) :
    rest.length ≤ cs.length := by
  unfold readFraction at h
  split at h
  · have := readDigits_length h
    rw [List.length_cons]; omega
  · cases h; exact Nat.le_refl _

theorem readExponent_length {cs rest : List Char} {e : Option (Bool × List Char)}
    (h : readExponent cs = some (e, rest)) : rest.length ≤ cs.length := by
  cases cs with
  | nil => cases h; exact Nat.le_refl _
  | cons c cs =>
    simp only [readExponent] at h
    split at h
    · obtain ⟨⟨ds, r⟩, hd, h⟩ := Option.map_eq_some_iff.1 h
      cases h
      have h₁ := readDigits_length hd
      have h₂ := Decimal.splitSign_length cs
      simp only [List.length_cons]; omega
    · cases h; exact Nat.le_refl _

theorem readUnsigned_length {negative : Bool} {cs rest : List Char} {literal : NumberLiteral}
    (h : readUnsigned negative cs = some (literal, rest)) : rest.length < cs.length := by
  simp only [readUnsigned, Option.bind_eq_bind, Option.bind_eq_some_iff] at h
  obtain ⟨⟨_, r₁⟩, hw, ⟨_, r₂⟩, hf, ⟨_, r₃⟩, he, h⟩ := h
  cases h
  have h₁ : r₁.length < cs.length := readWhole_length hw
  have h₂ : r₂.length ≤ r₁.length := readFraction_length hf
  have h₃ : r₃.length ≤ r₂.length := readExponent_length he
  exact Nat.lt_of_le_of_lt (Nat.le_trans h₃ h₂) h₁

theorem readLexeme_length {cs rest : List Char} {t : Lexeme} (h : readLexeme cs = some (t, rest)) :
    rest.length < cs.length := by
  unfold readLexeme at h
  split at h
  all_goals first
    | (cases h; done)
    | (cases h; simp only [List.length_cons]; omega)
    | skip
  · obtain ⟨⟨units, r⟩, hr, h⟩ := Option.map_eq_some_iff.1 h
    cases h
    have := readString_length hr
    simp only [List.length_cons]; omega
  · obtain ⟨⟨literal, r⟩, hr, h⟩ := Option.map_eq_some_iff.1 h
    cases h
    have := readUnsigned_length hr
    simp only [List.length_cons]; omega
  · obtain ⟨⟨literal, r⟩, hr, h⟩ := Option.map_eq_some_iff.1 h
    cases h
    exact readUnsigned_length hr

/-- The words at the front of a text, and whether they are all of it. -/
def lexemes (cs : List Char) : List Lexeme × Bool :=
  match _h : cs.dropWhile Text.isSeparator with
  | [] => ([], true)
  | c :: rest =>
    match _h' : readLexeme (c :: rest) with
    | none => ([], false)
    | some (t, rest') =>
      let (ts, complete) := lexemes rest'
      (t :: ts, complete)
termination_by cs.length
decreasing_by
  have h₁ := readLexeme_length _h'
  have h₂ := (List.dropWhile_sublist Text.isSeparator (l := cs)).length_le
  rw [_h] at h₂
  omega

end FormulaBar.Json
