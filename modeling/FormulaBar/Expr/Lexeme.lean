import FormulaBar.Decimal.Literal
import FormulaBar.Expr.Basic
import FormulaBar.Text.Blank

/-!
# FormulaBar.Expr.Lexeme — the words of an expression's text

Text is cut into runs of digits and points, the seven symbols, and four blanks that only separate. A run is read as a
decimal literal; one with two points or no digit is refused, and so is every other character. The first piece that
is refused decides the error.
-/

namespace FormulaBar

/-- A word of an expression's text. -/
inductive Lexeme
  | number (value : Float)
  | plus
  | minus
  | star
  | slash
  | caret
  | leftParen
  | rightParen

namespace Lexeme

/-- The characters of which numbers are made. -/
def isNumeral (c : Char) : Bool := c.isDigit || c = '.'

/-- The lexeme that a single character is. -/
def ofSymbol? : Char → Option Lexeme
  | '+' => some plus
  | '-' => some minus
  | '*' => some star
  | '/' => some slash
  | '^' => some caret
  | '(' => some leftParen
  | ')' => some rightParen
  | _ => none

theorem isNumeral_iff {c : Char} :
    isNumeral c = true ↔ c ∈ ['0', '1', '2', '3', '4', '5', '6', '7', '8', '9', '.'] := by
  constructor
  · intro h
    simp only [isNumeral, Bool.or_eq_true, decide_eq_true_eq] at h
    rcases h with hdigit | rfl
    · simp only [Char.isDigit, Bool.and_eq_true, decide_eq_true_eq, ge_iff_le, UInt32.le_iff_toNat_le] at hdigit
      have hcode : c.toNat ∈ List.range' 48 10 := List.mem_range'_1.2 ⟨hdigit.1, Nat.lt_succ_of_le hdigit.2⟩
      have hall : ∀ n ∈ List.range' 48 10,
          Char.ofNat n ∈ ['0', '1', '2', '3', '4', '5', '6', '7', '8', '9', '.'] := by decide
      rw [← Char.ofNat_toNat c]
      exact hall _ hcode
    · decide
  · intro h
    have hall : ['0', '1', '2', '3', '4', '5', '6', '7', '8', '9', '.'].all isNumeral = true := rfl
    exact List.all_eq_true.1 hall c h

theorem ofSymbol?_eq_some_iff {c : Char} {t : Lexeme} :
    ofSymbol? c = some t ↔ (c, t) ∈ [('+', plus), ('-', minus), ('*', star), ('/', slash), ('^', caret),
      ('(', leftParen), (')', rightParen)] := by
  constructor
  · intro h
    unfold ofSymbol? at h
    split at h <;> cases h <;> simp
  · intro h
    simp only [List.mem_cons, Prod.mk.injEq, List.not_mem_nil, or_false] at h
    rcases h with ⟨rfl, rfl⟩ | ⟨rfl, rfl⟩ | ⟨rfl, rfl⟩ | ⟨rfl, rfl⟩ | ⟨rfl, rfl⟩ | ⟨rfl, rfl⟩ | ⟨rfl, rfl⟩ <;> rfl

theorem ofSymbol?_isSome_iff {c : Char} :
    (ofSymbol? c).isSome = true ↔ c ∈ ['+', '-', '*', '/', '^', '(', ')'] := by
  simp [Option.isSome_iff_exists, ofSymbol?_eq_some_iff, exists_or]

/-- The number that a run of digits and points denotes. -/
def ofNumeral (run : List Char) : Except EvalError Lexeme :=
  match Decimal.ofLiteral? run with
  | some d => .ok (number d.toFloat)
  | none => .error (.invalidNumber (String.ofList run))

/-- The lexemes of a text, or the error of the leftmost piece that is none. -/
def ofChars : List Char → Except EvalError (List Lexeme)
  | [] => .ok []
  | c :: cs =>
    if Text.isSeparator c then ofChars cs
    else if isNumeral c then do
      let first ← ofNumeral (c :: cs.takeWhile isNumeral)
      return first :: (← ofChars (cs.dropWhile isNumeral))
    else
      match ofSymbol? c with
      | some symbol => do return symbol :: (← ofChars cs)
      | none => .error (.unexpectedCharacter c)
termination_by cs => cs.length
decreasing_by
  · simp
  · have := (List.dropWhile_sublist isNumeral (l := cs)).length_le
    simp; omega
  · simp

end Lexeme

end FormulaBar
