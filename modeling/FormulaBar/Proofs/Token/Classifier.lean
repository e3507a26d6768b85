import FormulaBar.Settings
import FormulaBar.Proofs.Formula.Source
import FormulaBar.Proofs.Text.Trim
import FormulaBar.Proofs.Token.Loads

/-!
# FormulaBar.Proofs.Token.Classifier — how plain text is classified

A text of blanks, digits and points that an expression may contain is classified as what its lexemes say: nothing when
it is blank, and otherwise the number that its only run denotes (`rowLexemes_classify`). No label is looked up for it
(`find?_of_plain`). Whatever a text is classified as is `Tidy` (`tidy_classify`), so it may be loaded.
-/

namespace FormulaBar

open Lexeme Binary64

/-- A mark that the settings allow starts no blank, number or operator. -/
theorem Settings.unambiguous_of_valid {s : Settings} (h : s.invalid? = none) : isAmbiguousMark s.mark = false := by
  by_contra hambiguous
  rw [invalid?, if_pos (by simpa using hambiguous)] at h
  cases h

/-! ### A run of digits and points -/

theorem Lexeme.toNat_of_isNumeral {c : Char} (h : isNumeral c = true) :
    c.toNat = 46 ∨ 48 ≤ c.toNat ∧ c.toNat ≤ 57 := by
  simp only [isNumeral, Bool.or_eq_true, decide_eq_true_eq] at h
  rcases h with hdigit | rfl
  · simp only [Char.isDigit, Bool.and_eq_true, decide_eq_true_eq, ge_iff_le, UInt32.le_iff_toNat_le] at hdigit
    exact .inr hdigit
  · exact .inl rfl

theorem Lexeme.not_isBlank_of_isNumeral {c : Char} (h : isNumeral c = true) : Text.isBlank c = false := by
  have hcode := toNat_of_isNumeral h
  simp [Text.isBlank]
  omega

theorem Lexeme.not_isControl_of_isNumeral {c : Char} (h : isNumeral c = true) : Text.isControl c = false := by
  have hcode := toNat_of_isNumeral h
  simp [Text.isControl]
  omega

theorem Operator.ofChar?_of_isNumeral {c : Char} (h : isNumeral c = true) : Operator.ofChar? c = none := by
  cases hop : Operator.ofChar? c with
  | none => rfl
  | some op =>
    have hsym := Lexeme.ofSymbol?_of_ofChar? hop
    rw [ofSymbol?_numeral h] at hsym
    cases hsym

theorem Operator.ofChars?_of_run {run : List Char} (hrun : ∀ c ∈ run, isNumeral c = true) :
    Operator.ofChars? run = none := by
  match run with
  | [] => rfl
  | [c] => exact Operator.ofChar?_of_isNumeral (hrun c (by simp))
  | _ :: _ :: _ => rfl

/-- A run has no sign. -/
theorem Decimal.splitSign_of_run {run : List Char} (hrun : ∀ c ∈ run, isNumeral c = true) :
    Decimal.splitSign run = (false, run) := by
  unfold Decimal.splitSign
  split
  · exact absurd (hrun '-' (by simp)) (by decide)
  · exact absurd (hrun '+' (by simp)) (by decide)
  · rfl

theorem Decimal.negative_of_run {run : List Char} {d : Decimal} (hrun : ∀ c ∈ run, isNumeral c = true)
    (h : Decimal.ofLiteral? run = some d) : d.negative = false := by
  simp only [Decimal.ofLiteral?, Decimal.splitSign_of_run hrun] at h
  split at h
  · cases h
  · obtain ⟨x, -, rfl⟩ := Option.map_eq_some_iff.1 h
    rfl

theorem Decimal.magnitude_le_infinity (d : Decimal) : d.magnitude ≤ infinity := nearest_le_infinity _ _

/-- A run that the lexer reads as a finite number is a number by itself, and it has no sign. -/
theorem Number.ofChars?_of_ofNumeral {run : List Char} {v : Float} (hrun : ∀ c ∈ run, isNumeral c = true)
    (h : ofNumeral run = .ok (.number v)) (hv : isFinite v = true) :
    Number.ofChars? run = some v ∧ Formula.numberLexemes v = [.number v] := by
  unfold ofNumeral at h
  split at h
  · next d hd =>
    cases h
    have hpositive := Decimal.negative_of_run hrun hd
    have hle := d.magnitude_le_infinity
    rw [Decimal.toFloat, isFinite_ofMagnitude hle] at hv
    constructor
    · rw [Number.ofChars?, hd, Option.bind_some, if_pos (of_decide_eq_true hv)]
    · simp [Formula.numberLexemes, Formula.absolute, Decimal.toFloat, hpositive, hle]
  · cases h

/-! ### Plain text -/

/-- A text of blanks, digits and points. -/
def Plain (cs : List Char) : Prop := ∀ c ∈ cs, Text.isSeparator c = true ∨ isNumeral c = true

theorem Plain.ofSymbol? {cs : List Char} (h : Plain cs) : ∀ c ∈ cs, ofSymbol? c = none := by
  intro c hc
  rcases h c hc with hsep | hnum
  · exact ofSymbol?_separator hsep
  · exact ofSymbol?_numeral hnum

section Plain

variable {cs : List Char} {ts : List Lexeme}

/-- Plain text of an expression with a value is blank, or its only run is a number. -/
theorem trim_of_plain (hplain : Plain cs) (h : ofChars cs = .ok ts) (hapart : NumbersApart ts)
    (hfinite : ∀ v, .number v ∈ ts → isFinite v = true) :
    (Text.trim cs = [] ∧ ts = []) ∨
      ∃ run v, Text.trim cs = run ∧ run ≠ [] ∧ Operator.ofChars? run = none ∧ Number.ofChars? run = some v ∧
        isFinite v = true ∧ Formula.numberLexemes v = ts := by
  rcases blank_or_run_of_lexes h hplain.ofSymbol? hapart with ⟨rfl, hblank⟩ | hrun
  · have htrim := Text.trim_eq_nil_iff.2 fun c hc => Text.isBlank_of_isSeparator (hblank c hc)
    exact .inl ⟨htrim, rfl⟩
  · obtain ⟨before, run, after, t, rfl, hbefore, hne, hnumeral, hafter, ht, rfl⟩ := hrun
    obtain ⟨v, rfl⟩ := ofNumeral_isNumber ht
    have hv := hfinite v (by simp)
    obtain ⟨hvalue, hlexemes⟩ := Number.ofChars?_of_ofNumeral hnumeral ht hv
    have htrim : Text.trim (before ++ run ++ after) = run := by
      refine Text.trim_between ?_ ?_ hne ?_ ?_
      · exact fun c hc => Text.isBlank_of_isSeparator (hbefore c hc)
      · exact fun c hc => Text.isBlank_of_isSeparator (hafter c hc)
      · exact fun c hc => not_isBlank_of_isNumeral (hnumeral c (List.mem_of_mem_head? hc))
      · exact fun c hc => not_isBlank_of_isNumeral (hnumeral c (List.mem_of_getLast? hc))
    exact .inr ⟨run, v, htrim, hne, Operator.ofChars?_of_run hnumeral, hvalue, hv, hlexemes⟩

/-- The token of plain text stands for the lexemes of the text. -/
theorem rowLexemes_classify (k : Classifier) (b : Bindings) (hplain : Plain cs) (h : ofChars cs = .ok ts)
    (hapart : NumbersApart ts) (hfinite : ∀ v, .number v ∈ ts → isFinite v = true) :
    Formula.rowLexemes b (k.classify (String.ofList cs)).toList = ts ∧
      ∀ d ∈ k.classify (String.ofList cs), Formula.HasFiniteValue b d := by
  rcases trim_of_plain hplain h hapart hfinite with ⟨htrim, rfl⟩ | hrun
  · have hnone : k.classify (String.ofList cs) = none := by simp [Classifier.classify, htrim]
    rw [hnone]
    exact ⟨rfl, by simp⟩
  · obtain ⟨run, v, htrim, hne, hop, hvalue, hv, rfl⟩ := hrun
    have hnumber : k.classify (String.ofList cs) = some (.number v) := by
      simp [Classifier.classify, htrim, hne, Classifier.ofTrimmed, hop, hvalue]
    rw [hnumber]
    refine ⟨by simp [Formula.rowLexemes, Formula.lexemes], ?_⟩
    intro d hd
    cases hd
    exact hv

theorem QuerySpan.splitAtLast_eq_none {mark : Char} (h : mark ∉ cs) : splitAtLast mark cs = none := by
  have hdrop : cs.reverse.dropWhile (· ≠ mark) = [] := by
    refine List.dropWhile_eq_nil_iff.2 fun c hc => ?_
    have hne : c ≠ mark := by
      rintro rfl
      exact h (List.mem_reverse.1 hc)
    simpa using hne
  simp only [splitAtLast, hdrop]

theorem Settings.not_mem_of_plain {mark : Char} (hmark : isAmbiguousMark mark = false) (hplain : Plain cs) :
    mark ∉ cs := by
  intro hmem
  simp only [isAmbiguousMark, Bool.or_eq_false_iff] at hmark
  rcases hplain mark hmem with hsep | hnum
  · have hblank := Text.isBlank_of_isSeparator hsep
    rw [hmark.1.1.1] at hblank
    cases hblank
  · simp [isNumeral, hmark.1.1.2, of_decide_eq_false hmark.1.2] at hnum

/-- No label is looked up for plain text. -/
theorem QuerySpan.find?_of_plain {k : Classifier} (hmark : Settings.isAmbiguousMark k.mark = false)
    (hplain : Plain cs) (h : ofChars cs = .ok ts) (hapart : NumbersApart ts)
    (hfinite : ∀ v, .number v ∈ ts → isFinite v = true) : QuerySpan.find? k cs = none := by
  have hsplit := splitAtLast_eq_none (Settings.not_mem_of_plain hmark hplain)
  rcases trim_of_plain hplain h hapart hfinite with ⟨htrim, rfl⟩ | hrun
  · simp [find?, hsplit, htrim]
  · obtain ⟨run, v, htrim, -, -, hvalue, -, -⟩ := hrun
    simp [find?, hsplit, htrim, hvalue]

end Plain

/-! ### What a text is classified as -/

theorem Number.isFinite_of_ofChars? {cs : List Char} {v : Float} (h : Number.ofChars? cs = some v) :
    isFinite v = true := by
  obtain ⟨d, -, hd⟩ := Option.bind_eq_some_iff.1 h
  split at hd
  · next hlt =>
    cases hd
    rw [Decimal.toFloat, isFinite_ofMagnitude d.magnitude_le_infinity]
    exact decide_eq_true hlt
  · cases hd

namespace TokenData

/-- A token that a text can stand for: a finite number, an operator, or a tag whose label is not empty and neither
starts nor ends with a blank. -/
def Tidy : TokenData → Prop
  | .number value => isFinite value = true
  | .operand _ => True
  | .tag label => label ≠ "" ∧ (∀ c ∈ label.toList.head?, Text.isBlank c = false) ∧
      ∀ c ∈ label.toList.getLast?, Text.isBlank c = false

theorem tidy_tag_trim {cs : List Char} (h : Text.trim cs ≠ []) :
    (TokenData.tag (String.ofList (Text.trim cs))).Tidy := by
  refine ⟨by simpa using h, ?_, ?_⟩
  · rw [String.toList_ofList]
    exact Text.head?_trim cs
  · rw [String.toList_ofList]
    exact Text.getLast?_trim cs

theorem Tidy.trim {label : String} (h : (TokenData.tag label).Tidy) : Text.trim label.toList = label.toList :=
  Text.trim_of_ends h.2.1 h.2.2

theorem Tidy.check {d : TokenData} (h : d.Tidy) : d.check = .ok () := by
  cases d with
  | number value => exact check_number_eq_ok_iff.2 h
  | operand op => rfl
  | tag label =>
    have htrim := h.trim
    have hne : Text.trim label.toList ≠ [] := by
      rw [htrim]
      simpa using h.1
    rw [check_tag_eq_ok_iff, ← Text.isBlankText_trim hne, htrim, String.ofList_toList]

theorem check_tag {cs : List Char} (h : Text.trim cs ≠ []) :
    (TokenData.tag (String.ofList (Text.trim cs))).check = .ok () := (tidy_tag_trim h).check

end TokenData

/-- Whatever a text is classified as is tidy. -/
theorem Classifier.tidy_classify {k : Classifier} {text : String} {d : TokenData} (h : k.classify text = some d) :
    d.Tidy := by
  unfold classify at h
  dsimp only at h
  split at h
  · cases h
  · next hne =>
    cases h
    unfold ofTrimmed
    split
    · trivial
    · split
      · next v hv => exact Number.isFinite_of_ofChars? hv
      · unfold labelOf
        split
        · next hnil => exact absurd hnil hne
        · split
          · next hmark => exact TokenData.tidy_tag_trim (by simpa using (Bool.and_eq_true_iff.1 hmark).2)
          · exact TokenData.tidy_tag_trim hne

theorem Classifier.check_classify {k : Classifier} {text : String} {d : TokenData} (h : k.classify text = some d) :
    d.check = .ok () := (tidy_classify h).check

end FormulaBar
