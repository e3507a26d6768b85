import FormulaBar.Json.Lexeme
import FormulaBar.Proofs.Number.RoundTrip

/-!
# FormulaBar.Proofs.Json.Literals — numbers are written as literals

Every number but an infinite one and NaN is written as a proper literal (`Number.chars_of_literal?`), and a proper
literal is read back up to the first character that cannot go on in it (`readLexeme_literal`).
-/

namespace FormulaBar

namespace Decimal

/-- Only zero starts with a zero. -/
theorem head?_digits {n : Nat} (h : n ≠ 0) : (digits n).head? ≠ some '0' := by
  induction n using Nat.strongRecOn with
  | ind n ih =>
    rw [digits, Nat.toDigits_eq_if (by decide)]
    split
    · next hlt =>
      have hdigit : ∀ m ∈ List.range 10, m ≠ 0 → Nat.digitChar m ≠ '0' := by decide
      simpa using hdigit n (List.mem_range.2 hlt) h
    · next hge =>
      have hne : n / 10 ≠ 0 := by omega
      rw [← digits, List.head?_append_of_ne_nil _ (digits_ne_nil (n / 10))]
      exact ih (n / 10) (Nat.div_lt_self (Nat.pos_of_ne_zero h) (by decide)) hne

end Decimal

namespace Json

open Decimal

variable {cs ds rest : List Char} {l : NumberLiteral}

/-! ### Literals -/

namespace NumberLiteral

/-- The power of ten at the end of a literal. -/
def exponentChars : Option (Bool × List Char) → List Char
  | none => []
  | some (negative, ds) => 'e' :: (if negative then '-' else '+') :: ds

/-- A literal as it is written, the power of ten with its sign. -/
def chars (l : NumberLiteral) : List Char :=
  (if l.negative then ['-'] else []) ++ l.whole ++ (if l.fraction = [] then [] else '.' :: l.fraction) ++
    exponentChars l.exponent

/-- Digits stand where they have to, and no zero before others in front of the point. -/
structure Proper (l : NumberLiteral) : Prop where
  whole_ne_nil : l.whole ≠ []
  whole : ∀ c ∈ l.whole, c.isDigit = true
  leading : l.whole = ['0'] ∨ l.whole.head? ≠ some '0'
  fraction : ∀ c ∈ l.fraction, c.isDigit = true
  exponent : ∀ p ∈ l.exponent, p.2 ≠ [] ∧ ∀ c ∈ p.2, c.isDigit = true

end NumberLiteral

/-! ### Reading a literal -/

/-- What follows goes on no number. -/
def EndsNumber (rest : List Char) : Prop :=
  ∀ c ∈ rest.head?, c.isDigit = false ∧ c ≠ '.' ∧ c ≠ 'e' ∧ c ≠ 'E'

theorem readDigits_append (hne : ds ≠ []) (hds : ∀ c ∈ ds, c.isDigit = true)
    (hrest : ∀ c ∈ rest.head?, c.isDigit = false) : readDigits (ds ++ rest) = some (ds, rest) := by
  have hstop : rest.takeWhile Char.isDigit = [] ∧ rest.dropWhile Char.isDigit = rest := by
    cases rest with
    | nil => exact ⟨rfl, rfl⟩
    | cons c cs => simp [hrest c rfl]
  obtain ⟨c, cs, rfl⟩ := List.exists_cons_of_ne_nil hne
  rw [readDigits, List.takeWhile_append_of_pos hds, List.dropWhile_append_of_pos hds, hstop.1, hstop.2,
    List.append_nil]

theorem readWhole_append (h : l.Proper) (hrest : ∀ c ∈ rest.head?, c.isDigit = false) :
    readWhole (l.whole ++ rest) = some (l.whole, rest) := by
  rcases h.leading with hzero | hhead
  · rw [hzero]
    rfl
  · rw [readWhole]
    · exact readDigits_append h.whole_ne_nil h.whole hrest
    · intro tail heq
      obtain ⟨c, cs, hcs⟩ := List.exists_cons_of_ne_nil h.whole_ne_nil
      rw [hcs] at heq hhead
      exact hhead (by rw [List.head?_cons, (List.cons.inj heq).1])

/-- Neither a fraction nor a power of ten follows. -/
theorem readFraction_append (h : l.Proper) (hrest : ∀ c ∈ rest.head?, c.isDigit = false ∧ c ≠ '.') :
    readFraction ((if l.fraction = [] then [] else '.' :: l.fraction) ++ rest) = some (l.fraction, rest) := by
  split
  · next hnil =>
    rw [hnil, List.nil_append, readFraction]
    intro tail heq
    exact (hrest '.' (by rw [heq]; rfl)).2 rfl
  · next hne => exact readDigits_append hne h.fraction fun c hc => (hrest c hc).1

theorem readExponent_append (h : l.Proper) (hrest : EndsNumber rest) :
    readExponent (NumberLiteral.exponentChars l.exponent ++ rest) = some (l.exponent, rest) := by
  cases hexponent : l.exponent with
  | none =>
    cases rest with
    | nil => rfl
    | cons c cs =>
      have hc := hrest c rfl
      simp [NumberLiteral.exponentChars, readExponent, hc]
  | some p =>
    obtain ⟨negative, ds⟩ := p
    obtain ⟨hne, hds⟩ := h.exponent _ (by rw [hexponent]; rfl)
    have hdigits := readDigits_append hne hds fun c hc => (hrest c hc).1
    cases negative <;> simp [NumberLiteral.exponentChars, readExponent, splitSign, hdigits]

/-- A power of ten goes on no fraction, and neither does what ends the number. -/
theorem head?_exponentChars (hrest : EndsNumber rest) :
    ∀ c ∈ (NumberLiteral.exponentChars l.exponent ++ rest).head?, c.isDigit = false ∧ c ≠ '.' := by
  intro c hc
  cases hexponent : l.exponent with
  | none =>
    rw [hexponent] at hc
    exact ⟨(hrest c hc).1, (hrest c hc).2.1⟩
  | some p =>
    rw [hexponent] at hc
    cases hc
    decide

theorem head?_fraction {tail : List Char} (htail : ∀ c ∈ tail.head?, c.isDigit = false ∧ c ≠ '.') :
    ∀ c ∈ ((if l.fraction = [] then [] else '.' :: l.fraction) ++ tail).head?, c.isDigit = false := by
  intro c hc
  split at hc
  · exact (htail c hc).1
  · cases hc
    decide

theorem readUnsigned_append (h : l.Proper) (hrest : EndsNumber rest) (negative : Bool) :
    readUnsigned negative (l.whole ++ ((if l.fraction = [] then [] else '.' :: l.fraction) ++
      (NumberLiteral.exponentChars l.exponent ++ rest))) = some ({ l with negative }, rest) := by
  have hexponent := head?_exponentChars (l := l) hrest
  simp only [readUnsigned, readWhole_append h (head?_fraction hexponent), Option.bind_eq_bind, Option.bind_some,
    readFraction_append h hexponent, readExponent_append h hrest]
  rfl

/-- A word that starts with a digit is a number. -/
theorem readLexeme_of_isDigit {c : Char} (hc : c.isDigit = true) (cs : List Char) :
    readLexeme (c :: cs) = (readUnsigned false (c :: cs)).map fun p => (.number p.1, p.2) := by
  have hne {d : Char} (hd : d.isDigit = false) (tail : List Char) : c :: cs ≠ d :: tail := by
    intro heq
    rw [(List.cons.inj heq).1, hd] at hc
    cases hc
  rw [readLexeme]
  · exact List.cons_ne_nil c cs
  all_goals exact fun tail => hne rfl _

/-- A proper literal is read back. -/
theorem readLexeme_literal (h : l.Proper) (hrest : EndsNumber rest) :
    readLexeme (l.chars ++ rest) = some (.number l, rest) := by
  obtain ⟨c, cs, hcs⟩ := List.exists_cons_of_ne_nil h.whole_ne_nil
  have hread := readUnsigned_append h hrest l.negative
  simp only [NumberLiteral.chars, List.append_assoc]
  cases hnegative : l.negative with
  | true =>
    rw [hnegative] at hread
    rw [if_pos rfl, List.singleton_append, readLexeme, hread, Option.map_some, ← hnegative]
  | false =>
    rw [hnegative, hcs, List.cons_append] at hread
    rw [if_neg (by decide), List.nil_append, hcs, List.cons_append,
      readLexeme_of_isDigit (h.whole c (by simp [hcs])), hread, Option.map_some, ← hnegative, ← hcs]

/-! ### Numbers as literals -/

namespace NumberLiteral

/-- The literal of `n * 10 ^ e` with one digit before the point. -/
def scientific (negative : Bool) (n : Nat) (e : Int) : NumberLiteral :=
  ⟨negative, (digits n).take 1, (digits n).drop 1, some (leadingPower n e < 0, digits (leadingPower n e).natAbs)⟩

/-- The literal of `n * 10 ^ e` with zeros and a point in place, and a digit behind the point. -/
def positional (negative : Bool) (n : Nat) : Int → NumberLiteral
  | .ofNat zeros => ⟨negative, digits n ++ List.replicate zeros '0', ['0'], none⟩
  | .negSucc k =>
    let padded := List.replicate (k + 2 - (digits n).length) '0' ++ digits n
    ⟨negative, padded.take (padded.length - (k + 1)), padded.drop (padded.length - (k + 1)), none⟩

/-- The literal of `n * 10 ^ e`. -/
def ofDecimal (negative : Bool) (n : Nat) (e : Int) : NumberLiteral :=
  if leadingPower n e < -5 ∨ 15 < leadingPower n e then scientific negative n e else positional negative n e

/-- The literal of a double that is finite. -/
def ofFloat (x : Float) : NumberLiteral :=
  if Binary64.magnitude x = 0 then ⟨Binary64.isNegative x, ['0'], ['0'], none⟩
  else
    let decimal := shortest .even (Binary64.magnitude x)
    ofDecimal (Binary64.isNegative x) decimal.1 decimal.2

variable {negative : Bool} {n : Nat} {e : Int}

theorem chars_scientific : (scientific negative n e).chars =
    (if negative then ['-'] else []) ++ Decimal.scientific n e := by
  obtain ⟨first, rest, hdigits⟩ := List.exists_cons_of_ne_nil (digits_ne_nil n)
  cases rest <;> simp [chars, scientific, Decimal.scientific, exponentChars, hdigits]

/-- A whole number gets a zero behind the point. -/
theorem chars_positional_of_nonneg (h : ¬e < 0) : (positional negative n e).chars =
    (if negative then ['-'] else []) ++ (Decimal.positional n e ++ ['.', '0']) := by
  obtain ⟨zeros, rfl⟩ := Int.eq_ofNat_of_zero_le (Int.not_lt.1 h)
  cases negative <;> simp [chars, positional, Decimal.positional, exponentChars]

theorem chars_positional_of_neg (h : e < 0) : (positional negative n e).chars =
    (if negative then ['-'] else []) ++ Decimal.positional n e := by
  obtain ⟨k, rfl⟩ := Int.eq_negSucc_of_lt_zero h
  have hfraction := (padded_digits n k).fraction_ne_nil
  generalize hpadded : List.replicate (k + 2 - (digits n).length) '0' ++ digits n = padded at hfraction
  cases negative <;> simp [chars, positional, Decimal.positional, exponentChars, hpadded, hfraction]

theorem chars_ofDecimal : (ofDecimal negative n e).chars = (if negative then ['-'] else []) ++
    if leadingPower n e < -5 ∨ 15 < leadingPower n e then Decimal.scientific n e
    else if e < 0 then Decimal.positional n e
    else Decimal.positional n e ++ ['.', '0'] := by
  by_cases hfar : leadingPower n e < -5 ∨ 15 < leadingPower n e
  · rw [ofDecimal, if_pos hfar, if_pos hfar, chars_scientific]
  by_cases hneg : e < 0
  · rw [ofDecimal, if_neg hfar, if_neg hfar, if_pos hneg, chars_positional_of_neg hneg]
  · rw [ofDecimal, if_neg hfar, if_neg hfar, if_neg hneg, chars_positional_of_nonneg hneg]

/-- A finite double is written as its literal. -/
theorem floatChars_eq {x : Float} (h : Binary64.isFinite x = true) : floatChars x = (ofFloat x).chars := by
  have hfinite : Binary64.magnitude x < Binary64.infinity := of_decide_eq_true h
  rw [floatChars, if_neg (Nat.not_le_of_lt hfinite), ofFloat]
  -- the digits are kept closed, or they are searched for
  generalize shortest .even (Binary64.magnitude x) = decimal
  generalize Binary64.isNegative x = negative
  by_cases hzero : Binary64.magnitude x = 0
  · rw [if_pos hzero, if_pos hzero]
    cases negative <;> rfl
  · obtain ⟨n, e⟩ := decimal
    rw [if_neg hzero, if_neg hzero, chars_ofDecimal]
    simp only [Bool.or_eq_true, decide_eq_true_eq]
    cases negative with
    | false => exact (List.nil_append _).symm
    | true => exact (List.singleton_append).symm

theorem proper_scientific (h : n ≠ 0) : (scientific negative n e).Proper := by
  have hdigits : ∀ c ∈ digits n, c.isDigit = true := fun c hc => isDigit_of_mem_digits hc
  refine ⟨by simp [scientific, digits_ne_nil], fun c hc => hdigits c (List.mem_of_mem_take hc), ?_,
    fun c hc => hdigits c (List.mem_of_mem_drop hc), ?_⟩
  · refine .inr ?_
    show ((digits n).take 1).head? ≠ _
    rw [List.head?_take, if_neg (by decide)]
    exact head?_digits h
  · rintro p ⟨⟩
    exact ⟨digits_ne_nil _, fun c hc => isDigit_of_mem_digits hc⟩

theorem proper_positional (h : n ≠ 0) : (positional negative n e).Proper := by
  have hdigits : ∀ c ∈ digits n, c.isDigit = true := fun c hc => isDigit_of_mem_digits hc
  cases e with
  | ofNat zeros =>
    refine ⟨by simp [positional, digits_ne_nil], ?_, .inr ?_, by simp [positional], by rintro p ⟨⟩⟩
    · intro c hc
      rcases List.mem_append.1 hc with hc | hc
      · exact hdigits c hc
      · rw [List.eq_of_mem_replicate hc]
        rfl
    · show (digits n ++ _).head? ≠ _
      rw [List.head?_append_of_ne_nil _ (digits_ne_nil n)]
      exact head?_digits h
  | negSucc k =>
    have hall := padded_digits n k
    have hlength := hall.length
    generalize hpadded : List.replicate (k + 2 - (digits n).length) '0' ++ digits n = padded at hall hlength
    simp only [positional, hpadded]
    refine ⟨hall.whole_ne_nil, fun c hc => hall.digits c (List.mem_of_mem_take hc), ?_,
      fun c hc => hall.digits c (List.mem_of_mem_drop hc), by rintro p ⟨⟩⟩
    -- either the digits of `n` reach to the point, or a single zero stands before it
    by_cases hlong : k + 2 ≤ (digits n).length
    · right
      have hzeros : k + 2 - (digits n).length = 0 := by omega
      rw [hzeros, List.replicate_zero, List.nil_append] at hpadded
      rw [List.head?_take, if_neg (by omega), ← hpadded]
      exact head?_digits h
    · left
      have hzeros : k + 2 - (digits n).length = (k + 1 - (digits n).length) + 1 := by omega
      have hone : padded.length - (k + 1) = 1 := by
        rw [← hpadded, List.length_append, List.length_replicate]
        omega
      rw [hone, ← hpadded, hzeros, List.replicate_succ]
      rfl

theorem proper_ofDecimal (h : n ≠ 0) : (ofDecimal negative n e).Proper := by
  unfold ofDecimal
  split
  · exact proper_scientific h
  · exact proper_positional h

theorem shortest_ne_zero (tie : Tie) {bits : Nat} (h : bits < Binary64.infinity) (hzero : bits ≠ 0) :
    (shortest tie bits).1 ≠ 0 := by
  have hvalue := magnitude_shortest tie false h
  generalize shortest tie bits = decimal at hvalue
  intro hcoefficient
  rw [magnitude, hcoefficient, Nat.zero_mul, Binary64.nearest_zero] at hvalue
  exact hzero hvalue.symm

theorem proper_ofFloat {x : Float} (h : Binary64.isFinite x = true) : (ofFloat x).Proper := by
  have hfinite : Binary64.magnitude x < Binary64.infinity := of_decide_eq_true h
  by_cases hzero : Binary64.magnitude x = 0
  · rw [ofFloat, if_pos hzero]
    exact ⟨by simp, by simp, .inl rfl, by simp, by rintro p ⟨⟩⟩
  · rw [ofFloat, if_neg hzero]
    exact proper_ofDecimal (shortest_ne_zero .even hfinite hzero)

/-! ### What plain digits are read as -/

theorem foldl_digits_le (n : Nat) (ds : List Char) : n ≤ ds.foldl (fun n c => 10 * n + digitValue c) n := by
  induction ds generalizing n with
  | nil => exact Nat.le_refl n
  | cons c ds ih =>
    have hstep : n ≤ 10 * n + digitValue c := by omega
    exact Nat.le_trans hstep (ih _)

/-- Digits are read as one word as long as the number fits. -/
theorem readWord_of_le {ds : List Char} (h : ds.foldl (fun n c => 10 * n + digitValue c) n ≤ greatestWord) :
    readWord n ds = (ds.foldl (fun n c => 10 * n + digitValue c) n, []) := by
  induction ds generalizing n with
  | nil => rfl
  | cons c ds ih =>
    have hnext : 10 * n + digitValue c ≤ greatestWord := Nat.le_trans (foldl_digits_le _ ds) h
    simp only [readWord, if_pos hnext]
    exact ih h

/-- The literal of a whole number. -/
def ofNat (negative : Bool) (n : Nat) : NumberLiteral := ⟨negative, digits n, [], none⟩

theorem proper_ofNat : (ofNat negative n).Proper := by
  refine ⟨digits_ne_nil n, fun c hc => isDigit_of_mem_digits hc, ?_, by simp [ofNat], by rintro p ⟨⟩⟩
  by_cases h : n = 0
  · subst h
    exact .inl rfl
  · exact .inr (head?_digits h)

theorem value?_ofNat (h : n ≤ greatestWord) : (ofNat false n).value? = some (.natural n) := by
  have hword : readWord 0 (digits n) = (n, []) := by
    have hfold : (digits n).foldl (fun n c => 10 * n + digitValue c) 0 = n := natOfDigits_digits n
    rw [readWord_of_le (by rwa [hfold]), hfold]
  simp [value?, ofNat, isPlain, hword]

end NumberLiteral

namespace Number

/-- The literal that a number is written as; what is not finite has none. -/
def literal? : Number → Option NumberLiteral
  | natural n => some (.ofNat false n)
  | negative n => some (.ofNat true n)
  | float x => if Binary64.isFinite x then some (.ofFloat x) else none

theorem chars_of_literal? {n : Number} {l : NumberLiteral} (h : n.literal? = some l) : n.chars = l.chars := by
  cases n with
  | natural n | negative n =>
    cases h
    simp [chars, NumberLiteral.ofNat, NumberLiteral.chars, NumberLiteral.exponentChars]
  | float x =>
    obtain ⟨hfinite, rfl⟩ := (Option.ite_none_right_eq_some.1 h).imp_right Option.some.inj
    exact NumberLiteral.floatChars_eq hfinite

theorem chars_of_no_literal {n : Number} (h : n.literal? = none) : n.chars = ['n', 'u', 'l', 'l'] := by
  cases n with
  | natural n | negative n => cases h
  | float x =>
    have hinfinite : Binary64.infinity ≤ Binary64.magnitude x := by
      by_contra hlt
      simp [literal?, Binary64.isFinite, Nat.lt_of_not_le hlt] at h
    rw [chars, floatChars, if_pos hinfinite]

theorem proper_literal? {n : Number} {l : NumberLiteral} (h : n.literal? = some l) : l.Proper := by
  cases n with
  | natural n | negative n =>
    cases h
    exact NumberLiteral.proper_ofNat
  | float x =>
    obtain ⟨hfinite, rfl⟩ := (Option.ite_none_right_eq_some.1 h).imp_right Option.some.inj
    exact NumberLiteral.proper_ofFloat hfinite

end Number

end Json

end FormulaBar
