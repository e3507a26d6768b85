import FormulaBar.Proofs.Formula.Lexing
import FormulaBar.Proofs.Formula.Spelling

/-!
# FormulaBar.Proofs.Formula.Hygiene — a value of a formula as one operand

A formula is evaluated through its text. `valueOfTokens` evaluates the tokens themselves: each value is one number,
whatever its sign. The two agree as long as no value below zero stands behind an operand or is raised to a power
(`eval_ofLexemes_spellRow`); without any value below zero nothing else is needed. Behind an operand the sign of a value
turns into a difference (`value_of_adjacent`), and the power of a value below zero is taken before its sign
(`value_of_raised`).
-/

namespace FormulaBar.Formula

open Binary64 FormulaBar.Parser FormulaBar.Expr

/-! ### Tokens as lexemes -/

/-- The one lexeme that a token is; its value is a number with its sign, where `-0` is zero. -/
def tokenLexeme (b : Bindings) : TokenData → Lexeme
  | .number value => .number (Number.written value)
  | .operand op => op.lexeme
  | .tag label => .number (Number.written (b.resolve label))

/-- The tokens of a row as lexemes. -/
def tokenLexemes (tokens : List Token) (b : Bindings) : List Lexeme := tokens.map fun t => tokenLexeme b t.data

/-- The value of a row of tokens that is read as it stands, not through text. -/
def valueOfTokens (tokens : List Token) (b : Bindings) : Except EvalError Float := do
  (← Expr.ofLexemes (some maxDepth) (tokenLexemes tokens b)).eval

variable {b : Bindings} {tokens : List Token} {v w : Float}

theorem numberLexemes_written (v : Float) : numberLexemes (Number.written v) = numberLexemes v := by
  simp only [numberLexemes, absolute, Number.magnitude_written, Number.isNegative_written]
  by_cases hzero : magnitude v = 0 <;> simp [hzero]

/-- What is written for a token is its lexeme, spelled. -/
theorem spelled_tokenLexeme (b : Bindings) (d : TokenData) : (tokenLexeme b d).spelled = lexemes b d := by
  cases d with
  | number value => exact numberLexemes_written value
  | operand op => cases op <;> rfl
  | tag label => exact numberLexemes_written _

theorem spellRow_tokenLexemes (tokens : List Token) (b : Bindings) :
    spellRow (tokenLexemes tokens b) = rowLexemes b (tokens.map (·.data)) := by
  simp [spellRow, tokenLexemes, rowLexemes, List.flatMap_map, spelled_tokenLexeme]

/-- The value of a row with finite values is that of its lexemes, spelled. -/
theorem value_eq_spelled (h : ∀ t ∈ tokens, HasFiniteValue b t.data) :
    value tokens b = (ofLexemes (some maxDepth) (spellRow (tokenLexemes tokens b))).bind eval := by
  have hdata : ∀ d ∈ tokens.map (·.data), HasFiniteValue b d := by simpa using h
  rw [value_eq, ofChars_sourceChars hdata, spellRow_tokenLexemes]
  rfl

/-- The numbers among the lexemes are finite, and none is `-0`. -/
theorem written_of_mem_tokenLexemes (h : ∀ t ∈ tokens, HasFiniteValue b t.data)
    (hv : .number v ∈ tokenLexemes tokens b) :
    isFinite v = true ∧ (magnitude v = 0 → isNegative v = false) := by
  -- a written number is finite like the number itself, and a zero loses its sign
  have of_finite {x : Float} (hx : isFinite x = true) : isFinite (Number.written x) = true ∧
      (magnitude (Number.written x) = 0 → isNegative (Number.written x) = false) := by
    rw [isFinite, Number.magnitude_written, Number.isNegative_written]
    exact ⟨hx, fun hzero => by simp [hzero]⟩
  obtain ⟨t, ht, heq⟩ := List.mem_map.1 hv
  have hfinite := h t ht
  cases hdata : t.data with
  | number value =>
    rw [hdata] at heq hfinite
    obtain rfl := Lexeme.number.inj heq
    exact of_finite hfinite
  | operand op =>
    rw [hdata] at heq
    cases op <;> cases heq
  | tag label =>
    rw [hdata] at heq hfinite
    obtain rfl := Lexeme.number.inj heq
    exact of_finite hfinite

/-! ### Where the text and the tokens agree -/

/-- A row without a number below zero is written as it stands, but for the sign bit of zero. -/
theorem spellRow_of_not_belowZero {ts : List Lexeme} (h : ∀ t ∈ ts, ¬t.IsBelowZero)
    (hzero : ∀ v, .number v ∈ ts → magnitude v = 0 → isNegative v = false) : spellRow ts = ts := by
  have hspelled : ∀ t ∈ ts, t.spelled = [t] := by
    intro t ht
    rw [Lexeme.spelled_of_not_belowZero (h t ht)]
    cases t with
    | number v =>
      have hsign : isNegative v = false := by
        by_contra hsign
        exact hsign (hzero v ht (by_contra fun hne => h _ ht ⟨by simpa using hsign, hne⟩))
      rw [Lexeme.unsigned, absolute, ← hsign, ofMagnitude_magnitude]
    | _ => rfl
  rw [spellRow, List.flatMap_congr hspelled]
  simp

/-- Reading without limits, the spelled row has the value of the row, or its error at the same token. -/
theorem eval_ofLexemes_spellRow {ts : List Lexeme} (hfree : SignsFree ts) (hlength : ts.length ≤ maxLexemes)
    (hspelled : (spellRow ts).length ≤ maxLexemes)
    (hv : ∀ v, .number v ∈ ts → isFinite v = true ∧ (magnitude v = 0 → isNegative v = false)) :
    (ofLexemes none (spellRow ts)).bind eval =
      ((ofLexemes none ts).bind eval).mapError (EvalError.relocated (spelledPosition ts)) := by
  rw [ofLexemes_spellRow hfree hlength hspelled]
  cases he : ofLexemes none ts with
  | error err => rfl
  | ok e =>
    -- the leaves of the tree are numbers of the row
    have hleaves : ∀ v ∈ e.leaves, isFinite v = true ∧ (magnitude v = 0 → isNegative v = false) := by
      obtain ⟨-, -, hderives⟩ := Expr.ofLexemes_eq_ok_iff.1 he
      intro v hmem
      rw [← leaves_of_derives hderives, List.mem_filterMap] at hmem
      obtain ⟨t, ht, htv⟩ := hmem
      cases t with
      | number w =>
        cases htv
        exact hv _ ht
      | _ => cases htv
    show e.spelled.eval = e.eval.mapError _
    rw [eval_spelled hleaves]
    cases heval : e.eval with
    | ok x => rfl
    | error err =>
      rw [eval_eq_error heval]
      rfl

/-- With finite values a formula has the value of its tokens, each value being one operand, if no value is below zero,
and within the limits also if none of those below zero stands behind an operand or in front of `^`. An error is then the
same too, and stands at the same token. -/
theorem value_eq_valueOfTokens (tokens : List Token) (b : Bindings) (hfinite : ∀ t ∈ tokens, HasFiniteValue b t.data) :
    ((∀ t ∈ tokenLexemes tokens b, ¬t.IsBelowZero) → value tokens b = valueOfTokens tokens b) ∧
      (SignsFree (tokenLexemes tokens b) → WithinLimits (value tokens b) → WithinLimits (valueOfTokens tokens b) →
        value tokens b =
          (valueOfTokens tokens b).mapError (EvalError.relocated (spelledPosition (tokenLexemes tokens b)))) := by
  rw [value_eq_spelled hfinite]
  constructor
  · intro hbelow
    rw [spellRow_of_not_belowZero hbelow fun v hv => (written_of_mem_tokenLexemes hfinite hv).2]
    rfl
  · intro hfree htext htokens
    change WithinLimits ((ofLexemes (some maxDepth) (tokenLexemes tokens b)).bind eval) at htokens
    obtain ⟨hspelled, htext⟩ := ofLexemes_of_withinLimits htext
    obtain ⟨hlength, htokens⟩ := ofLexemes_of_withinLimits htokens
    show _ = ((ofLexemes (some maxDepth) (tokenLexemes tokens b)).bind eval).mapError _
    rw [htext, htokens]
    exact eval_ofLexemes_spellRow hfree hlength hspelled fun v hv => written_of_mem_tokenLexemes hfinite hv

/-- A loss of `-5`, taken away from `3`, is one operand in the text `3 - -5` too. -/
theorem value_eq_valueOfTokens_loss :
    let tokens : List Token := [⟨⟨1⟩, .number 3⟩, ⟨⟨2⟩, .operand .sub⟩, ⟨⟨3⟩, .tag "Loss"⟩]
    let b := Bindings.ofList [("Loss", -5)]
    value tokens b = .ok 8 ∧ valueOfTokens tokens b = .ok 8 := by
  intro tokens b
  have hfinite : ∀ t ∈ tokens, HasFiniteValue b t.data := by decide +kernel
  have hlexemes : tokenLexemes tokens b = [.number 3] ++ .minus :: [.number (-5)] := by decide +kernel
  have hspelled : spellRow (tokenLexemes tokens b) = [.number 3] ++ .minus :: [.minus, .number 5] := by decide +kernel
  have hnumber (d : Nat) (h : ∀ n ∈ some maxDepth, d ≤ n) (v : Float) :
      Derives (some maxDepth) .signed d [.number v] (.number v) := .unsigned h (.base (.number v))
  have hthree : Derives (some maxDepth) .sum 0 [.number 3] (.number 3) :=
    .sum_single (.product_single (hnumber 0 (by simp) 3))
  have htokens : valueOfTokens tokens b = .ok 8 := by
    -- the row reads `3` `-` `-5`
    rw [valueOfTokens, hlexemes, ofLexemes_eq_ok_iff.2 ⟨by decide, by decide,
      .sum_more hthree rfl (.product_single (hnumber 0 (by simp) (-5)))⟩]
    show (Expr.binary .sub (.number 3) (.number (-5))).eval = .ok 8
    decide +kernel
  have htext : value tokens b = .ok 8 := by
    -- its text reads `3` `-` `-` `5`
    rw [value_eq_spelled hfinite, hspelled, ofLexemes_eq_ok_iff.2 ⟨by decide, by decide,
      .sum_more hthree rfl (.product_single (.minus (by simp) (hnumber 1 (by simp [maxDepth]) 5)))⟩]
    show (Expr.binary .sub (.number 3) (.neg (.number 5))).eval = .ok 8
    decide +kernel
  have h := (value_eq_valueOfTokens tokens b hfinite).2 (by decide +kernel) (by simp [WithinLimits, htext])
    (by simp [WithinLimits, htokens])
  exact ⟨by rw [h, htokens]; rfl, htokens⟩

/-! ### Where they do not -/

/-- A value below zero behind a whole formula is taken away from it. -/
theorem value_of_adjacent {t : Token} {e : Expr} (hfinite : ∀ u ∈ tokens ++ [t], HasFiniteValue b u.data)
    (ht : tokenLexeme b t.data = .number w) (hw : IsBelowZero w)
    (hlength : (spellRow (tokenLexemes (tokens ++ [t]) b)).length ≤ maxLexemes)
    (h : ofLexemes (some maxDepth) (spellRow (tokenLexemes tokens b)) = .ok e) :
    value (tokens ++ [t]) b = (Expr.binary .sub e (.number (absolute w))).eval := by
  obtain ⟨-, -, hderives⟩ := ofLexemes_eq_ok_iff.1 h
  have hrow : spellRow (tokenLexemes (tokens ++ [t]) b) =
      spellRow (tokenLexemes tokens b) ++ .minus :: [.number (absolute w)] := by
    simp [tokenLexemes, spellRow, ht, Lexeme.spelled_of_belowZero hw]
  have hnumber : Derives (some maxDepth) .product 0 [.number (absolute w)] (.number (absolute w)) :=
    .product_single (.unsigned (by simp) (.base (.number _)))
  rw [value_eq_spelled hfinite]
  rw [hrow] at hlength ⊢
  rw [ofLexemes_eq_ok_iff.2 ⟨by simp, hlength, .sum_more hderives rfl hnumber⟩]
  rfl

/-- The tokens are no formula: the value is left over. -/
theorem valueOfTokens_of_adjacent {t : Token} {e : Expr} (ht : tokenLexeme b t.data = .number w)
    (hlength : tokens.length < maxLexemes) (h : ofLexemes (some maxDepth) (tokenLexemes tokens b) = .ok e) :
    valueOfTokens (tokens ++ [t]) b = .error (.trailingInput tokens.length) := by
  obtain ⟨-, -, hderives⟩ := ofLexemes_eq_ok_iff.1 h
  have hrow : tokenLexemes (tokens ++ [t]) b = tokenLexemes tokens b ++ [.number w] := by simp [tokenLexemes, ht]
  have hread : read (some maxDepth) .sum 0 (tokenLexemes tokens b ++ [.number w]) = .ok (e, [.number w]) := by
    rw [read_of_derives hderives [.number w] (by simp [Phrase.EndsBefore, Lexeme.multiplicative?]),
      readMore_stop (k := .sum) rfl]
  have hall : (tokenLexemes tokens b ++ [Lexeme.number w]).length ≤ maxLexemes := by simpa [tokenLexemes] using hlength
  rw [valueOfTokens, hrow, ofLexemes_eq_read (by simp) hall, hread]
  simp [leftOver, tokenLexemes]
  rfl

/-- The numbers `2` and `-5` side by side are no formula, but their text `2 -5` is a difference. -/
theorem value_of_adjacent_numbers :
    let tokens : List Token := [⟨⟨1⟩, .number 2⟩, ⟨⟨2⟩, .number (-5)⟩]
    (∀ t ∈ tokens, HasFiniteValue {} t.data) ∧ value tokens {} = .ok (-3) ∧
      valueOfTokens tokens {} = .error (.trailingInput 1) := by
  intro tokens
  have hfinite : ∀ t ∈ tokens, HasFiniteValue {} t.data := by decide +kernel
  have htwo : ofLexemes (some maxDepth) [.number 2] = .ok (.number 2) :=
    ofLexemes_eq_ok_iff.2 ⟨by decide, by decide,
      .sum_single (.product_single (.unsigned (by simp) (.base (.number 2))))⟩
  have hlexemes : tokenLexemes [⟨⟨1⟩, .number 2⟩] {} = [.number 2] := by decide +kernel
  have hspelled : spellRow [.number 2] = [.number 2] := by decide +kernel
  have hminus : tokenLexeme {} (.number (-5)) = .number (-5) := by decide +kernel
  refine ⟨hfinite, ?_, ?_⟩
  -- with the text, the second number is a sign and a number
  · have hvalue : value ([⟨⟨1⟩, .number 2⟩] ++ [⟨⟨2⟩, .number (-5)⟩]) {} =
        (Expr.binary .sub (.number 2) (.number (absolute (-5)))).eval :=
      value_of_adjacent hfinite hminus (by decide +kernel) (by decide +kernel) (by rw [hlexemes, hspelled, htwo])
    exact hvalue.trans (by decide +kernel)
  -- without it, nothing may follow the first
  · have herror : valueOfTokens ([⟨⟨1⟩, .number 2⟩] ++ [⟨⟨2⟩, .number (-5)⟩]) {} = .error (.trailingInput 1) :=
      valueOfTokens_of_adjacent hminus (by decide) (by rw [hlexemes, htwo])
    exact herror

theorem tokenLexemes_raised {t c : Token} {us : List Token} (ht : tokenLexeme b t.data = .number v)
    (hc : c.data = .operand .pow) : tokenLexemes (t :: c :: us) b = [.number v] ++ .caret :: tokenLexemes us b := by
  have hcaret : tokenLexeme b c.data = .caret := by rw [hc]; rfl
  simp [tokenLexemes, ht, hcaret]

/-- The power of a value below zero is taken of its absolute value, and the sign stays in front. -/
theorem value_of_raised {t c : Token} {us : List Token} {x : Expr}
    (hfinite : ∀ u ∈ t :: c :: us, HasFiniteValue b u.data) (ht : tokenLexeme b t.data = .number v)
    (hv : IsBelowZero v) (hc : c.data = .operand .pow)
    (hlength : (spellRow (tokenLexemes (t :: c :: us) b)).length ≤ maxLexemes)
    (h : Derives (some maxDepth) .signed 2 (spellRow (tokenLexemes us b)) x) :
    value (t :: c :: us) b = (Expr.neg (.binary .pow (.number (absolute v)) x)).eval := by
  have hrow : spellRow (tokenLexemes (t :: c :: us) b) =
      .minus :: ([.number (absolute v)] ++ .caret :: spellRow (tokenLexemes us b)) := by
    rw [tokenLexemes_raised ht hc, List.singleton_append, spellRow_cons_belowZero hv, spellRow_symbol rfl]
    rfl
  have hpower : Derives (some maxDepth) .signed 1 ([.number (absolute v)] ++ .caret :: spellRow (tokenLexemes us b))
      (.binary .pow (.number (absolute v)) x) := .unsigned (by simp [maxDepth]) (.raised (.number _) h)
  rw [value_eq_spelled hfinite]
  rw [hrow] at hlength ⊢
  rw [ofLexemes_eq_ok_iff.2 ⟨by simp, hlength, .sum_single (.product_single (.minus (by simp) hpower))⟩]
  rfl

/-- Of the tokens it is the power of the value itself. -/
theorem valueOfTokens_of_raised {t c : Token} {us : List Token} {x : Expr} (ht : tokenLexeme b t.data = .number v)
    (hc : c.data = .operand .pow) (hlength : (t :: c :: us).length ≤ maxLexemes)
    (h : Derives (some maxDepth) .signed 1 (tokenLexemes us b) x) :
    valueOfTokens (t :: c :: us) b = (Expr.binary .pow (.number v) x).eval := by
  have hrow : tokenLexemes (t :: c :: us) b = [.number v] ++ .caret :: tokenLexemes us b := tokenLexemes_raised ht hc
  have hall : ([Lexeme.number v] ++ .caret :: tokenLexemes us b).length ≤ maxLexemes := by
    rw [← hrow]
    simpa [tokenLexemes] using hlength
  rw [valueOfTokens, hrow, ofLexemes_eq_ok_iff.2 ⟨by simp, hall,
    .sum_single (.product_single (.unsigned (by simp) (.raised (.number v) h)))⟩]
  rfl

end FormulaBar.Formula
