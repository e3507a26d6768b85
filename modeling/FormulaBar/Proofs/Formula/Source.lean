import FormulaBar.Formula
import FormulaBar.Proofs.Expr.Lexing
import FormulaBar.Proofs.Expr.Value
import FormulaBar.Proofs.Number.RoundTrip

/-!
# FormulaBar.Proofs.Formula.Source — the text of a formula has the lexemes of its tokens

A row of tokens is evaluated through text. If all its values are finite, cutting that text gives back what each token
stands for, in order (`ofChars_sourceChars`): an operator its symbol, and a value its magnitude, with a minus in front
when it is below zero.
-/

namespace FormulaBar

/-- The lexeme that an operator is. -/
def Operator.lexeme : Operator → Lexeme
  | add => .plus
  | sub => .minus
  | mul => .star
  | div => .slash
  | pow => .caret
  | leftParen => .leftParen
  | rightParen => .rightParen

theorem Lexeme.ofSymbol?_symbol (op : Operator) : Lexeme.ofSymbol? op.symbol = some op.lexeme := by
  cases op <;> rfl

theorem Lexeme.ofSymbol?_of_ofChar? {c : Char} {op : Operator} (h : Operator.ofChar? c = some op) :
    Lexeme.ofSymbol? c = some op.lexeme := by
  rw [← Operator.symbol_of_ofChar? h]
  exact ofSymbol?_symbol op

theorem Lexeme.ofSymbol?_of_ofChar?_eq_none {c : Char} (h : Operator.ofChar? c = none) :
    Lexeme.ofSymbol? c = none := by
  unfold ofSymbol?
  split
  all_goals first | rfl | cases h

namespace Formula

open Binary64

/-- A number without its sign. -/
def absolute (x : Float) : Float := ofMagnitude false (magnitude x)

/-- Without a sign a number that is not below zero is itself, and `-0` is zero. -/
theorem absolute_eq_written {x : Float} (h : ¬(isNegative x = true ∧ magnitude x ≠ 0)) :
    absolute x = Number.written x := by
  unfold absolute Number.written
  split
  · next hzero =>
    rw [hzero]
    rfl
  · next hne =>
    have hsign : isNegative x = false := by
      by_contra hsign
      exact h ⟨by simpa using hsign, hne⟩
    rw [← hsign, ofMagnitude_magnitude]

/-- The lexemes of a number. -/
def numberLexemes (x : Float) : List Lexeme :=
  if isNegative x = true ∧ magnitude x ≠ 0 then [.minus, .number (absolute x)] else [.number (absolute x)]

/-- The lexemes that a token stands for. -/
def lexemes (b : Bindings) : TokenData → List Lexeme
  | .number value => numberLexemes value
  | .operand op => [op.lexeme]
  | .tag label => numberLexemes (b.resolve label)

/-- The value of the token, if it has one, is finite. -/
def HasFiniteValue (b : Bindings) : TokenData → Prop
  | .number value => isFinite value = true
  | .operand _ => True
  | .tag label => isFinite (b.resolve label) = true

instance (b : Bindings) : DecidablePred (HasFiniteValue b)
  | .number value => inferInstanceAs (Decidable (isFinite value = true))
  | .operand _ => inferInstanceAs (Decidable True)
  | .tag label => inferInstanceAs (Decidable (isFinite (b.resolve label) = true))

/-- The lexemes of a row of tokens. -/
def rowLexemes (b : Bindings) (data : List TokenData) : List Lexeme := data.flatMap (lexemes b)

theorem rowLexemes_append (b : Bindings) (data more : List TokenData) :
    rowLexemes b (data ++ more) = rowLexemes b data ++ rowLexemes b more := List.flatMap_append

variable {b : Bindings} {rest : List Char}

theorem ofChars_unsignedChars {bits : Nat} (h : bits < infinity) (hrest : Lexeme.EndsRun rest) :
    Lexeme.ofChars (Number.unsignedChars bits ++ rest) =
      (Lexeme.ofChars rest).map (.number (ofMagnitude false bits) :: ·) := by
  have hreads := Number.reads_unsignedChars h
  have hnumeral : ∀ c ∈ Number.unsignedChars bits, Lexeme.isNumeral c = true := by
    intro c hc
    rcases hreads.numeral c hc with hdigit | rfl
    · simp [Lexeme.isNumeral, hdigit]
    · rfl
  obtain ⟨d, hd, hsign, hmagnitude⟩ := hreads.literal
  have hfirst : Lexeme.ofNumeral (Number.unsignedChars bits) = .ok (.number (ofMagnitude false bits)) := by
    rw [Lexeme.ofNumeral, hd, ← hmagnitude, ← hsign]
    rfl
  rw [Lexeme.ofChars_run hreads.ne_nil hnumeral hrest, hfirst]
  rfl

theorem ofChars_chars {x : Float} (h : isFinite x = true) (hrest : Lexeme.EndsRun rest) :
    Lexeme.ofChars (Number.chars x ++ rest) = (Lexeme.ofChars rest).map (numberLexemes x ++ ·) := by
  have hlt : magnitude x < infinity := of_decide_eq_true h
  rw [Number.chars_of_isFinite h, numberLexemes]
  by_cases hsign : isNegative x = true ∧ magnitude x ≠ 0
  · rw [if_pos hsign, if_pos hsign, List.cons_append, Lexeme.ofChars_symbol (t := .minus) rfl,
      ofChars_unsignedChars hlt hrest]
    cases Lexeme.ofChars rest <;> rfl
  · rw [if_neg hsign, if_neg hsign]
    exact ofChars_unsignedChars hlt hrest

theorem ofChars_tokenSource {d : TokenData} (h : HasFiniteValue b d) (hrest : Lexeme.EndsRun rest) :
    Lexeme.ofChars (tokenSource b d ++ rest) = (Lexeme.ofChars rest).map (lexemes b d ++ ·) := by
  cases d with
  | number value => exact ofChars_chars h hrest
  | operand op => exact Lexeme.ofChars_symbol (Lexeme.ofSymbol?_symbol op) rest
  | tag label => exact ofChars_chars h hrest

/-- The text of a row of tokens with finite values is cut back into what the tokens stand for. -/
theorem ofChars_sourceChars {data : List TokenData} (h : ∀ d ∈ data, HasFiniteValue b d) :
    Lexeme.ofChars (sourceChars data b) = .ok (rowLexemes b data) := by
  unfold sourceChars
  induction data with
  | nil => exact Lexeme.ofChars_nil
  | cons d data ih =>
    have hd := h d (by simp)
    have htail := ih fun d' hd' => h d' (by simp [hd'])
    cases data with
    | nil =>
      have hlast := ofChars_tokenSource hd Lexeme.endsRun_nil
      rw [List.append_nil, Lexeme.ofChars_nil] at hlast
      rw [List.map_singleton, List.intercalate_singleton, hlast]
      rfl
    | cons d' data =>
      rw [List.map_cons, List.map_cons, List.intercalate_cons_cons, List.append_assoc,
        ofChars_tokenSource hd (by simp [Lexeme.isNumeral]), List.singleton_append, Lexeme.ofChars_separator rfl,
        ← List.map_cons, htail]
      rfl

/-- A row of tokens with finite values has the value of its lexemes. -/
theorem result_of_lexemes {tokens : List Token} {e : Expr} {x : Float}
    (hvalues : ∀ d ∈ tokens.map (·.data), HasFiniteValue b d)
    (he : Expr.ofLexemes (some maxDepth) (rowLexemes b (tokens.map (·.data))) = .ok e) (hx : e.eval = .ok x) :
    result tokens b = Number.text x := by
  have hvalue : value tokens b = .ok x := by
    unfold value
    rw [Expr.ofChars, ofChars_sourceChars hvalues]
    exact bind_eq_ok.2 ⟨e, he, hx⟩
  have hne : tokens.isEmpty = false := by
    cases tokens with
    | nil =>
      obtain ⟨hpos, -, -⟩ := Expr.ofLexemes_eq_ok_iff.1 he
      simp [rowLexemes] at hpos
    | cons _ _ => rfl
  simp [result, hne, hvalue]

end Formula

end FormulaBar
