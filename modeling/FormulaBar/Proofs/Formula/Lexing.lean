import FormulaBar.Proofs.Formula.Source
import FormulaBar.Proofs.Number.Sign

/-!
# FormulaBar.Proofs.Formula.Lexing — a formula is read as its tokens

The text of a formula is cut into lexemes before it is evaluated. `image` says what each token should become there, in
terms of its value: a number above zero itself, one below zero a minus sign and its absolute value, and either zero the
number zero. With finite values the text is cut into exactly these images; a value that is not finite is written in
letters, and the first letter is refused. In neither case can the text be empty or hold half a number.
-/

namespace FormulaBar

/-! ### Which errors a row of lexemes and a tree can have -/

/-- The error is about the order of lexemes, their number or their nesting. -/
def EvalError.IsSyntactic : EvalError → Prop
  | .unexpectedEnd | .unexpectedToken _ | .missingClosingParen | .trailingInput _ | .tooDeep | .tooLong _ => True
  | .empty | .unexpectedCharacter _ | .invalidNumber _ | .nonFinite => False

theorem SyntaxError.isSyntactic_inRow (count : Nat) (e : SyntaxError) : (e.inRow count).IsSyntactic := by
  cases e <;> trivial

namespace Expr

theorem isSyntactic_leftOver (position : Nat) (t : Lexeme) : (leftOver position t).IsSyntactic := by
  cases t <;> trivial

theorem isSyntactic_of_ofLexemes {limit : Option Nat} {ts : List Lexeme} {err : EvalError} (hne : ts ≠ [])
    (h : ofLexemes limit ts = .error err) : err.IsSyntactic := by
  rw [ofLexemes, if_neg (by simpa using hne)] at h
  split at h
  · cases h
    trivial
  · split at h <;> cases h
    · exact SyntaxError.isSyntactic_inRow _ _
    · exact isSyntactic_leftOver _ _

theorem eval_eq_error {e : Expr} {err : EvalError} (h : e.eval = .error err) : err = .nonFinite := by
  have of_finite {x : Float} (hx : finite x = .error err) : err = .nonFinite := by
    unfold finite at hx
    split at hx <;> cases hx
    rfl
  induction e with
  | number v => exact of_finite h
  | neg e ih =>
    rcases bind_eq_error.1 h with he | ⟨x, -, hx⟩
    · exact ih he
    · exact of_finite hx
  | binary op l r ihl ihr =>
    rcases bind_eq_error.1 h with hl | ⟨x, -, hx⟩
    · exact ihl hl
    · rcases bind_eq_error.1 hx with hr | ⟨y, -, hy⟩
      · exact ihr hr
      · exact of_finite hy

end Expr

namespace Formula

open Binary64

variable {b : Bindings} {rest : List Char} {v : Float}

/-! ### Images -/

/-- What a value becomes in the text: at most a minus sign, and a number. -/
def valueImage (v : Float) : List Lexeme :=
  if 0 < v then [.number v] else if v < 0 then [.minus, .number v.abs] else [.number 0]

/-- What a token becomes in the text. -/
def image (b : Bindings) : TokenData → List Lexeme
  | .number value => valueImage value
  | .operand op => [op.lexeme]
  | .tag label => valueImage (b.resolve label)

theorem numberLexemes_eq_valueImage (h : isFinite v = true) : numberLexemes v = valueImage v := by
  have habs : absolute v = v.abs := (abs_eq h).symm
  by_cases hzero : magnitude v = 0
  · have hnum : absolute v = 0 := by
      rw [absolute, hzero]
      exact ofMagnitude_zero.1
    simp [numberLexemes, valueImage, zero_lt_iff h, lt_zero_iff h, hzero, hnum]
  · cases hsign : isNegative v with
    | true => simp [numberLexemes, valueImage, zero_lt_iff h, lt_zero_iff h, hzero, hsign, habs]
    | false =>
      have hself : absolute v = v := by
        rw [absolute, ← hsign, ofMagnitude_magnitude]
      simp [numberLexemes, valueImage, zero_lt_iff h, hzero, hsign, hself]

theorem lexemes_eq_image {d : TokenData} (h : HasFiniteValue b d) : lexemes b d = image b d := by
  cases d with
  | number value => exact numberLexemes_eq_valueImage h
  | operand op => rfl
  | tag label => exact numberLexemes_eq_valueImage h

theorem rowLexemes_eq_images {data : List TokenData} (h : ∀ d ∈ data, HasFiniteValue b d) :
    rowLexemes b data = data.flatMap (image b) := by
  unfold rowLexemes
  exact List.flatMap_congr fun d hd => lexemes_eq_image (h d hd)

theorem image_ne_nil (b : Bindings) (d : TokenData) : image b d ≠ [] := by
  have value_ne_nil (v : Float) : valueImage v ≠ [] := by
    unfold valueImage
    split
    · simp
    · split <;> simp
  cases d with
  | number value => exact value_ne_nil value
  | operand op => simp [image]
  | tag label => exact value_ne_nil _

/-! ### Values that are not finite -/

/-- The text of infinity or NaN is refused at its first letter. -/
theorem ofChars_chars_of_not_finite (h : isFinite v ≠ true) (rest : List Char) :
    ∃ c, Lexeme.ofChars (Number.chars v ++ rest) = .error (.unexpectedCharacter c) := by
  have hle : infinity ≤ magnitude v := by simpa [isFinite] using h
  unfold Number.chars
  by_cases hnan : infinity < magnitude v
  · rw [if_pos hnan]
    exact ⟨'N', Lexeme.ofChars_other rfl rfl rfl _⟩
  · have heq : magnitude v = infinity := by omega
    simp only [heq, Nat.lt_irrefl, if_true, if_false]
    split
    · refine ⟨'i', ?_⟩
      rw [List.cons_append, Lexeme.ofChars_symbol (t := .minus) rfl]
      rw [List.cons_append, Lexeme.ofChars_other rfl rfl rfl]
      rfl
    · exact ⟨'i', Lexeme.ofChars_other rfl rfl rfl _⟩

theorem ofChars_tokenSource_of_not_finite {d : TokenData} (h : ¬HasFiniteValue b d) (rest : List Char) :
    ∃ c, Lexeme.ofChars (tokenSource b d ++ rest) = .error (.unexpectedCharacter c) := by
  cases d with
  | number value => exact ofChars_chars_of_not_finite h rest
  | operand op => exact absurd trivial h
  | tag label => exact ofChars_chars_of_not_finite h rest

/-- The leftmost value that is not finite decides the error. -/
theorem ofChars_sourceChars_of_not_finite {data : List TokenData} (h : ∃ d ∈ data, ¬HasFiniteValue b d) :
    ∃ c, Lexeme.ofChars (sourceChars data b) = .error (.unexpectedCharacter c) := by
  unfold sourceChars
  induction data with
  | nil => simp at h
  | cons d data ih =>
    -- a token in front of it is lexed, and the error is the one behind
    by_cases hd : HasFiniteValue b d
    · have htail : ∃ d' ∈ data, ¬HasFiniteValue b d' := by simpa [hd] using h
      obtain ⟨c, hc⟩ := ih htail
      cases data with
      | nil => simp at htail
      | cons d' data =>
        refine ⟨c, ?_⟩
        rw [List.map_cons, List.map_cons, List.intercalate_cons_cons, List.append_assoc,
          ofChars_tokenSource hd (by simp [Lexeme.isNumeral]), List.singleton_append, Lexeme.ofChars_separator rfl,
          ← List.map_cons, hc]
        rfl
    -- this is the leftmost
    · cases data with
      | nil => simpa using ofChars_tokenSource_of_not_finite hd []
      | cons d' data =>
        rw [List.map_cons, List.map_cons, List.intercalate_cons_cons, List.append_assoc]
        exact ofChars_tokenSource_of_not_finite hd _

/-! ### The text of a formula -/

variable {tokens : List Token}

theorem value_eq (tokens : List Token) (b : Bindings) :
    value tokens b = (Lexeme.ofChars (sourceChars (tokens.map (·.data)) b)).bind fun ts =>
      (Expr.ofLexemes (some maxDepth) ts).bind Expr.eval := by
  unfold value Expr.ofChars
  cases Lexeme.ofChars (sourceChars (tokens.map (·.data)) b) <;> rfl

theorem ofChars_source_of_finite (h : ∀ t ∈ tokens, HasFiniteValue b t.data) :
    Lexeme.ofChars (sourceChars (tokens.map (·.data)) b) = .ok (tokens.flatMap fun t => image b t.data) := by
  have hdata : ∀ d ∈ tokens.map (·.data), HasFiniteValue b d := by simpa using h
  rw [ofChars_sourceChars hdata, rowLexemes_eq_images hdata, List.flatMap_map]

theorem value_of_not_finite (h : ∃ t ∈ tokens, ¬HasFiniteValue b t.data) :
    ∃ c, value tokens b = .error (.unexpectedCharacter c) := by
  have hdata : ∃ d ∈ tokens.map (·.data), ¬HasFiniteValue b d := by simpa using h
  obtain ⟨c, hc⟩ := ofChars_sourceChars_of_not_finite hdata
  refine ⟨c, ?_⟩
  rw [value_eq, hc]
  rfl

/-- What can be wrong with a nonempty row: a letter, the order of the lexemes, or the value. -/
theorem value_eq_error {err : EvalError} (hne : tokens ≠ []) (h : value tokens b = .error err) :
    (∃ c, err = .unexpectedCharacter c) ∨ err.IsSyntactic ∨ err = .nonFinite := by
  by_cases hall : ∀ t ∈ tokens, HasFiniteValue b t.data
  · have hlexemes : (tokens.flatMap fun t => image b t.data) ≠ [] := by
      obtain ⟨t, ts, rfl⟩ := List.exists_cons_of_ne_nil hne
      simp [image_ne_nil]
    rw [value_eq, ofChars_source_of_finite hall] at h
    rcases bind_eq_error.1 h with hlex | ⟨ts, hts, hrow⟩
    · cases hlex
    · cases hts
      rcases bind_eq_error.1 hrow with hsyntactic | ⟨e, -, heval⟩
      · exact .inr (.inl (Expr.isSyntactic_of_ofLexemes hlexemes hsyntactic))
      · exact .inr (.inr (Expr.eval_eq_error heval))
  · have hsome : ∃ t ∈ tokens, ¬HasFiniteValue b t.data := by simpa using hall
    obtain ⟨c, hc⟩ := value_of_not_finite hsome
    rw [hc] at h
    cases h
    exact .inl ⟨c, rfl⟩

/-- The text of tokens with finite values is cut into their images, one after another. If a value is not finite, a
character is refused. So the value of a nonempty row never fails for an empty text or for half a number. -/
theorem source_reads_as_images (tokens : List Token) (b : Bindings) (hne : tokens ≠ []) :
    ((∀ t ∈ tokens, HasFiniteValue b t.data) →
        Lexeme.ofChars (source tokens b).toList = .ok (tokens.flatMap fun t => image b t.data)) ∧
      ((∃ t ∈ tokens, ¬HasFiniteValue b t.data) → ∃ c, value tokens b = .error (.unexpectedCharacter c)) ∧
      value tokens b ≠ .error .empty ∧ ∀ text, value tokens b ≠ .error (.invalidNumber text) := by
  refine ⟨fun h => ?_, value_of_not_finite, ?_, ?_⟩
  · rw [source, String.toList_ofList, ofChars_source_of_finite h]
  · intro h
    simpa [EvalError.IsSyntactic] using value_eq_error hne h
  · intro text h
    simpa [EvalError.IsSyntactic] using value_eq_error hne h

/-- A value below zero behind a minus sign makes two of them, and an infinite value is refused. -/
theorem source_reads_as_images_loss :
    Lexeme.ofChars (source [⟨⟨1⟩, .number 3⟩, ⟨⟨2⟩, .operand .sub⟩, ⟨⟨3⟩, .tag "Loss"⟩]
        (Bindings.ofList [("Loss", -5)])).toList = .ok [.number 3, .minus, .minus, .number 5] ∧
      ∃ c, value [⟨⟨1⟩, .number 3⟩, ⟨⟨2⟩, .number (1 / 0)⟩] {} = .error (.unexpectedCharacter c) := by
  constructor
  · refine (source_reads_as_images _ _ (by simp)).1 ?_
    decide +kernel
  · refine (source_reads_as_images _ _ (by simp)).2.1 ⟨⟨⟨2⟩, .number (1 / 0)⟩, by simp, ?_⟩
    decide +kernel

end Formula

end FormulaBar
