import FormulaBar.Proofs.Number.Sign
import FormulaBar.Proofs.Token.Classifier

/-!
# FormulaBar.Proofs.Token.EditText — the text to edit a token is read as that token

A token that is taken back is shown as text again. Classifying this text gives the token back (`classify_editText`):
an operator's symbol and a number's digits are no label, and a tag has its mark in front, so that its label may
look like an operator, a number or a mark. Only `-0` comes back as `0`, since it is written so. Blanks around the text
do not count, and only tidy tokens are read (`editText_reads_back`).
-/

namespace FormulaBar

open Binary64 Lexeme

theorem Operator.not_isBlank_symbol (op : Operator) : Text.isBlank op.symbol = false := by
  cases op <;> rfl

/-! ### Numbers -/

theorem Decimal.ofLiteral?_minus {run : List Char} {d : Decimal} (hrun : ∀ c ∈ run, isNumeral c = true)
    (h : ofLiteral? run = some d) : ofLiteral? ('-' :: run) = some { d with negative := true } := by
  have hsign : splitSign ('-' :: run) = (true, run) := rfl
  simp only [ofLiteral?, splitSign_of_run hrun, hsign] at h ⊢
  split at h
  · cases h
  · next hne =>
    rw [if_neg hne]
    obtain ⟨x, hx, rfl⟩ := Option.map_eq_some_iff.1 h
    rw [hx]
    rfl

namespace Number

/-- The digits of a number and the literal that they are. -/
theorem literal_unsignedChars {bits : Nat} (h : bits < infinity) :
    unsignedChars bits ≠ [] ∧ (∀ c ∈ unsignedChars bits, isNumeral c = true) ∧
      ∃ d, Decimal.ofLiteral? (unsignedChars bits) = some d ∧ d.negative = false ∧ d.magnitude = bits := by
  have hreads := reads_unsignedChars h
  refine ⟨hreads.ne_nil, fun c hc => ?_, hreads.literal⟩
  rcases hreads.numeral c hc with hdigit | rfl
  · simp [isNumeral, hdigit]
  · rfl

/-- The text of a number is neither blank at its ends nor an operator, and reads as the number. -/
theorem ofChars?_chars {x : Float} (h : isFinite x = true) :
    chars x ≠ [] ∧ (∀ c ∈ chars x, Text.isBlank c = false) ∧ Operator.ofChars? (chars x) = none ∧
      ofChars? (chars x) = some (written x) := by
  have hlt : magnitude x < infinity := of_decide_eq_true h
  obtain ⟨hne, hnumeral, d, hd, hpositive, hmagnitude⟩ := literal_unsignedChars hlt
  have hblank : ∀ c ∈ unsignedChars (magnitude x), Text.isBlank c = false :=
    fun c hc => not_isBlank_of_isNumeral (hnumeral c hc)
  rw [chars_of_isFinite h]
  split
  -- a minus is in front of the digits
  · next hbelow =>
    refine ⟨by simp, ?_, ?_, ?_⟩
    · intro c hc
      rcases List.mem_cons.1 hc with rfl | hc
      · rfl
      · exact hblank c hc
    · obtain ⟨c, cs, hcons⟩ := List.exists_cons_of_ne_nil hne
      rw [hcons]
      rfl
    -- the sign and the magnitude are those of the number
    · have hfloat : Decimal.toFloat { d with negative := true } = x := by
        show ofMagnitude true d.magnitude = x
        rw [hmagnitude, ← hbelow.1, ofMagnitude_magnitude]
      rw [ofChars?, Decimal.ofLiteral?_minus hnumeral hd, Option.bind_some, hfloat, written, if_neg hbelow.2]
      exact if_pos (hmagnitude ▸ hlt)
  -- no sign is written, for a negative zero either
  · next habove =>
    refine ⟨hne, hblank, Operator.ofChars?_of_run hnumeral, ?_⟩
    have hfloat : d.toFloat = written x := by
      rw [Decimal.toFloat, hpositive, hmagnitude]
      exact Formula.absolute_eq_written habove
    rw [ofChars?, hd, Option.bind_some, hfloat]
    exact if_pos (hmagnitude ▸ hlt)

/-- Only `-0` is written as another number. -/
theorem written_cases (x : Float) : written x = x ∨ x = -0 ∧ written x = 0 := by
  by_cases hzero : magnitude x = 0
  · have hx := ofMagnitude_magnitude x
    rw [hzero] at hx
    rw [written, if_pos hzero, ← hx]
    cases isNegative x with
    | false => exact .inl ofMagnitude_zero.1.symm
    | true => exact .inr ⟨ofMagnitude_zero.2, rfl⟩
  · exact .inl (if_neg hzero)

end Number

/-! ### Tags -/

namespace Settings

variable {mark : Char}

/-- A mark starts neither a blank nor a number, and is no operator. -/
theorem mark_of_unambiguous (h : isAmbiguousMark mark = false) :
    Text.isBlank mark = false ∧ isNumeral mark = false ∧ Operator.ofChar? mark = none := by
  simp only [isAmbiguousMark, Bool.or_eq_false_iff, Option.isSome_eq_false_iff, Option.isNone_iff_eq_none] at h
  obtain ⟨⟨⟨hblank, hdigit⟩, hpoint⟩, hop⟩ := h
  exact ⟨hblank, by simp [isNumeral, hdigit, of_decide_eq_false hpoint], hop⟩

end Settings

theorem Decimal.ofLiteral?_of_head {c : Char} (hnumeral : isNumeral c = false) (hop : Operator.ofChar? c = none)
    (cs : List Char) : ofLiteral? (c :: cs) = none := by
  have hdigit : c.isDigit = false := by
    simp only [isNumeral, Bool.or_eq_false_iff] at hnumeral
    exact hnumeral.1
  have hsign : splitSign (c :: cs) = (false, c :: cs) := by
    unfold splitSign
    split
    · next heq => cases heq; cases hop
    · next heq => cases heq; cases hop
    · rfl
  have hmantissa : splitMantissa (c :: cs) = ([], [], c :: cs) := by
    rw [splitMantissa, List.dropWhile_cons_of_neg (by simp [hdigit]), List.takeWhile_cons_of_neg (by simp [hdigit])]
    split
    · next heq => cases heq; cases hnumeral
    · rfl
  simp only [ofLiteral?, hsign, hmantissa]
  rfl

/-! ### Taking a token back and reading it again -/

/-- The token that the text of a token is read as: that token, with zero for `-0`. -/
def TokenData.written : TokenData → TokenData
  | .number value => .number (Number.written value)
  | d => d

/-- Only `-0` is read as another token. -/
theorem TokenData.written_cases (d : TokenData) :
    d.written = d ∨ d = .number (-0) ∧ d.written = .number 0 := by
  cases d with
  | number value =>
    rcases Number.written_cases value with hsame | ⟨hzero, hwritten⟩
    · exact .inl (congrArg number hsame)
    · exact .inr ⟨congrArg number hzero, congrArg number hwritten⟩
  | operand op => exact .inl rfl
  | tag label => exact .inl rfl

namespace Classifier

variable {k : Classifier}

/-- Blanks around a text do not count. -/
theorem classify_padded {before after : String} (hbefore : Text.isBlankText before = true)
    (hafter : Text.isBlankText after = true) (text : String) :
    k.classify (before ++ text ++ after) = k.classify text := by
  have htrim : Text.trim (before ++ text ++ after).toList = Text.trim text.toList := by
    rw [String.toList_append, String.toList_append]
    exact Text.trim_padded (List.all_eq_true.1 hbefore) (List.all_eq_true.1 hafter) text.toList
  rw [classify, classify, htrim]

theorem classify_trim (k : Classifier) (cs : List Char) :
    k.classify (String.ofList (Text.trim cs)) = k.classify (String.ofList cs) := by
  simp [classify]

theorem classify_of_trim {text : String} {d : TokenData} (htrim : Text.trim text.toList = text.toList)
    (hne : text.toList ≠ []) (h : k.ofTrimmed text.toList = d) : k.classify text = some d := by
  rw [classify, htrim, if_neg hne, h]

/-- The text of a number is read as that number. -/
theorem classify_number {x : Float} (h : isFinite x = true) :
    k.classify (Number.text x) = some (.number (Number.written x)) := by
  obtain ⟨hne, hblank, hop, hvalue⟩ := Number.ofChars?_chars h
  have htext : (Number.text x).toList = Number.chars x := String.toList_ofList
  refine classify_of_trim ?_ (htext ▸ hne) ?_
  · rw [htext]
    exact Text.trim_of_not_blank hblank
  · simp only [ofTrimmed, htext, hop, hvalue]

/-- Whatever stands behind the mark is a tag, even if it looks like an operator or a number. -/
theorem classify_marked {after : List Char} (hmark : Settings.isAmbiguousMark k.mark = false)
    (hne : Text.trim after ≠ []) :
    k.classify (String.ofList (k.mark :: after)) = some (.tag (String.ofList (Text.trim after))) := by
  obtain ⟨hblank, hnumeral, hop⟩ := Settings.mark_of_unambiguous hmark
  have hops : Operator.ofChars? (k.mark :: (after.takeWhile Text.isBlank ++ Text.trim after)) = none := by
    obtain ⟨c, cs, hcons⟩ := List.exists_cons_of_ne_nil (List.append_ne_nil_of_right_ne_nil _ hne)
    rw [hcons]
    rfl
  have hnumber : Number.ofChars? (k.mark :: (after.takeWhile Text.isBlank ++ Text.trim after)) = none := by
    rw [Number.ofChars?, Decimal.ofLiteral?_of_head hnumeral hop]
    rfl
  have hrest : Text.trim (after.takeWhile Text.isBlank ++ Text.trim after) = Text.trim after := by
    rw [Text.trim_blank_append fun _ hc => List.mem_takeWhile_imp hc, Text.trim_trim]
  rw [classify, String.toList_ofList, Text.trim_cons hblank hne, ofTrimmed, hops, hnumber]
  simp [labelOf, hrest, hne]

/-- A tag with its mark in front is read as that tag. -/
theorem classify_tag {label : String} (hmark : Settings.isAmbiguousMark k.mark = false)
    (hne : label.toList ≠ []) (htrim : Text.trim label.toList = label.toList) :
    k.classify (k.mark.toString ++ label) = some (.tag label) := by
  have htext : k.mark.toString ++ label = String.ofList (k.mark :: label.toList) := by
    rw [← String.toList_inj]
    simp
  rw [htext, classify_marked hmark (htrim.symm ▸ hne), htrim, String.ofList_toList]

/-- What a token holds comes back from its text, if its label has no blanks at its ends. -/
theorem classify_editText {d : TokenData} (hmark : Settings.isAmbiguousMark k.mark = false) (hcheck : d.check = .ok ())
    (hlabel : ∀ label, d = .tag label → Text.trimmed label = label) :
    k.classify (d.editText k.mark) = some d.written := by
  cases d with
  | number value =>
    -- each kind by its own text; the check keeps out infinite numbers and blank labels
    have hfinite : isFinite value = true := by
      by_contra hinfinite
      rw [TokenData.check, if_neg hinfinite] at hcheck
      cases hcheck
    exact classify_number hfinite
  | operand op =>
    have htext : (TokenData.editText k.mark (.operand op)).toList = [op.symbol] := by simp [TokenData.editText]
    refine classify_of_trim ?_ (by simp [htext]) ?_
    · rw [htext]
      exact Text.trim_of_not_blank (by simp [Operator.not_isBlank_symbol])
    · simp [ofTrimmed, htext, Operator.ofChars?, TokenData.written]
  | tag label =>
    have htrim : Text.trim label.toList = label.toList := by
      have htrimmed := congrArg String.toList (hlabel label rfl)
      rwa [Text.trimmed, String.toList_ofList] at htrimmed
    refine classify_tag hmark ?_ htrim
    intro hnil
    rw [TokenData.check, if_pos (by simp [Text.isBlankText, hnil])] at hcheck
    cases hcheck

/-- With a mark that the settings allow, a tidy token is read back from its text, whatever blanks stand around it. Only
tidy tokens are ever read, so that a token that was read comes back from its text. In both, `-0` comes back as `0`. -/
theorem editText_reads_back (s : Settings) (hs : s.invalid? = none) :
    let k : Classifier := ⟨s.mark⟩
    (∀ d : TokenData, d.Tidy →
      ∀ before after : String, Text.isBlankText before = true → Text.isBlankText after = true →
        k.classify (before ++ d.editText s.mark ++ after) = some d.written) ∧
    (∀ text d, k.classify text = some d → d.Tidy ∧ k.classify (d.editText s.mark) = some d.written) ∧
    ∀ d : TokenData, d.written = d ∨ d = .number (-0) ∧ d.written = .number 0 := by
  intro k
  have hreads {d : TokenData} (hd : d.Tidy) : k.classify (d.editText s.mark) = some d.written := by
    refine classify_editText (Settings.unambiguous_of_valid hs) hd.check ?_
    rintro label rfl
    rw [Text.trimmed, hd.trim, String.ofList_toList]
  refine ⟨?_, ?_, TokenData.written_cases⟩
  · intro d hd before after hbefore hafter
    rw [classify_padded hbefore hafter, hreads hd]
  · intro text d hclassify
    have hd := tidy_classify hclassify
    exact ⟨hd, hreads hd⟩

/-- Behind the mark `#`, the label `-3` is read as a label and not as a number. -/
theorem editText_reads_back_minus_three :
    let s : Settings := { mark := '#' }
    s.invalid? = none ∧ (⟨s.mark⟩ : Classifier).classify " #-3\t" = some (.tag "-3") := by
  intro s
  have hs : s.invalid? = none := by decide
  have hd : (TokenData.tag "-3").Tidy := by simp [TokenData.Tidy, Text.isBlank]
  exact ⟨hs, (editText_reads_back s hs).1 _ hd " " "\t" (by decide) (by decide)⟩

end Classifier

end FormulaBar
