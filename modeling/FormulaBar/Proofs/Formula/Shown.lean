import FormulaBar.Proofs.Token.EditText

/-!
# FormulaBar.Proofs.Formula.Shown — what is shown for a formula is a formula with the same result

A result that is not the fixed phrase is the text of a finite number. Typed in again, this text is read as the number,
and a row of that one token is written, cut, parsed and evaluated to it (`value_number`): a number below zero through
the negation of its absolute value. So the same text is shown again (`result_reads_back`).
-/

namespace FormulaBar.Formula

open Binary64 FormulaBar.Parser FormulaBar.Expr

variable {b : Bindings} {tokens : List Token} {x : Float}

/-- The tree of a number: the number, or the negation of its absolute value. -/
def numberTree (x : Float) : Expr :=
  if isNegative x = true ∧ magnitude x ≠ 0 then .neg (.number (absolute x)) else .number (absolute x)

theorem ofLexemes_numberLexemes (x : Float) : ofLexemes (some maxDepth) (numberLexemes x) = .ok (numberTree x) := by
  have hnumber {d : Nat} (hd : d ≤ maxDepth) :
      Derives (some maxDepth) .signed d [.number (absolute x)] (.number (absolute x)) :=
    .unsigned (by simpa using hd) (.base (.number _))
  unfold numberLexemes numberTree
  split
  · have hminus : Derives (some maxDepth) .signed 0 [.minus, .number (absolute x)] (.neg (.number (absolute x))) :=
      .minus (by simp) (hnumber (by decide))
    exact ofLexemes_eq_ok_iff.2 ⟨by simp, by simp [maxLexemes], .sum_single (.product_single hminus)⟩
  · exact ofLexemes_eq_ok_iff.2 ⟨by simp, by simp [maxLexemes], .sum_single (.product_single (hnumber (by decide)))⟩

/-- The tree of a finite number has its value, but for the sign bit of zero. -/
theorem eval_numberTree (h : isFinite x = true) : (numberTree x).eval = .ok (Number.written x) := by
  have hle : magnitude x ≤ infinity := Nat.le_of_lt (of_decide_eq_true h)
  have habs : isFinite (absolute x) = true := by rwa [absolute, isFinite_ofMagnitude hle]
  unfold numberTree
  split
  · next hbelow =>
    have hneg : -absolute x = x := by
      rw [neg_eq habs, absolute, isNegative_ofMagnitude hle, magnitude_ofMagnitude hle, Bool.not_false, ← hbelow.1,
        ofMagnitude_magnitude]
    rw [Number.written, if_neg hbelow.2]
    exact eval_neg_eq_ok.2 ⟨absolute x, eval_number_eq_ok.2 ⟨habs, rfl⟩, finite_eq_ok.2 ⟨by rwa [hneg], hneg⟩⟩
  · next habove => exact eval_number_eq_ok.2 ⟨habs, absolute_eq_written habove⟩

/-- A row of one finite number has its value. -/
theorem value_number (h : isFinite x = true) (id : TokenId) (b : Bindings) :
    value [⟨id, .number x⟩] b = .ok (Number.written x) := by
  have hvalues : ∀ d ∈ [TokenData.number x], HasFiniteValue b d := by simpa [HasFiniteValue] using h
  have hrow : rowLexemes b [.number x] = numberLexemes x := List.append_nil _
  rw [value, List.map_singleton, Expr.ofChars, ofChars_sourceChars hvalues, hrow]
  exact bind_eq_ok.2 ⟨_, ofLexemes_numberLexemes x, eval_numberTree h⟩

theorem result_number (h : isFinite x = true) (id : TokenId) (b : Bindings) :
    result [⟨id, .number x⟩] b = Number.text x := by
  rw [result, value_number h]
  exact congrArg String.ofList (Number.chars_written x)

theorem isFinite_of_value (h : value tokens b = .ok x) : isFinite x = true := by
  obtain ⟨e, -, he⟩ := bind_eq_ok.1 h
  exact isFinite_of_eval he

/-- What is shown is the fixed phrase, or the text of a finite number. -/
theorem result_cases (tokens : List Token) (b : Bindings) :
    (tokens ≠ [] ∧ result tokens b = invalid ∧ ∃ err, value tokens b = .error err) ∨
      ∃ x, (tokens = [] ∧ x = 0 ∨ tokens ≠ [] ∧ value tokens b = .ok x) ∧ isFinite x = true ∧
        result tokens b = Number.text x := by
  by_cases hnil : tokens = []
  · subst hnil
    exact .inr ⟨0, .inl ⟨rfl, rfl⟩, by decide, rfl⟩
  · have hempty : tokens.isEmpty = false := by simpa using hnil
    cases hvalue : value tokens b with
    | error err => exact .inl ⟨hnil, by simp [result, hempty, hvalue], err, rfl⟩
    | ok x => exact .inr ⟨x, .inr ⟨hnil, rfl⟩, isFinite_of_value hvalue, by simp [result, hempty, hvalue]⟩

/-- What is shown for a row of tokens is the fixed phrase, because the row has no value, or a text that any classifier
reads as a finite number: the value of the row, zero for the empty one, and zero for `-0`. The row of that number alone
shows the same text, whatever the labels are bound to. -/
theorem result_reads_back (tokens : List Token) (b : Bindings) (k : Classifier) :
    (tokens ≠ [] ∧ result tokens b = invalid ∧ ∃ err, value tokens b = .error err) ∨
      ∃ x v, (tokens = [] ∧ x = 0 ∨ tokens ≠ [] ∧ value tokens b = .ok x) ∧
        k.classify (result tokens b) = some (.number v) ∧ isFinite v = true ∧ (v = x ∨ x = -0 ∧ v = 0) ∧
        ∀ id b', result [⟨id, .number v⟩] b' = result tokens b := by
  rcases result_cases tokens b with hinvalid | ⟨x, hvalue, hfinite, hresult⟩
  · exact .inl hinvalid
  · have hwritten : isFinite (Number.written x) = true := by rwa [isFinite, Number.magnitude_written]
    refine .inr ⟨x, Number.written x, hvalue, ?_, hwritten, Number.written_cases x, fun id b' => ?_⟩
    · rw [hresult, Classifier.classify_number hfinite]
    · rw [result_number hwritten, hresult]
      exact congrArg String.ofList (Number.chars_written x)

end FormulaBar.Formula
