import FormulaBar.Proofs.Number.Rounding
import Mathlib.Data.List.TakeWhile

/-!
# FormulaBar.Proofs.Number.RoundTrip — the text of a number reads back

A finite number is shown as a literal (`reads_unsignedChars`), with a minus sign in front when it is below zero, and
the double nearest to that literal is the number itself. The digits are found by trying, so all there is to show is that
neither moving zeros into the exponent nor writing the digits out changes the value.
-/

namespace FormulaBar

namespace Decimal

open Binary64

/-! ### Digits -/

theorem natOfDigits_eq (ds : List Char) : natOfDigits ds = Nat.ofDigitChars 10 ds 0 := rfl

@[simp] theorem natOfDigits_digits (n : Nat) : natOfDigits (digits n) = n := Nat.ofDigitChars_ten_toDigits

theorem natOfDigits_append_zeros (ds : List Char) (k : Nat) :
    natOfDigits (ds ++ List.replicate k '0') = natOfDigits ds * tenTo k := by
  rw [natOfDigits_eq, Nat.ofDigitChars_append, Nat.ofDigitChars_replicate_zero, Nat.mul_comm]
  rfl

theorem natOfDigits_zeros_append (k : Nat) (ds : List Char) :
    natOfDigits (List.replicate k '0' ++ ds) = natOfDigits ds := by
  rw [natOfDigits_eq, Nat.ofDigitChars_append, Nat.ofDigitChars_replicate_zero, Nat.mul_zero]
  rfl

theorem isDigit_of_mem_digits {n : Nat} {c : Char} (h : c ∈ digits n) : c.isDigit = true :=
  Nat.isDigit_of_mem_toDigits (by decide) (by decide) h

theorem digits_ne_nil (n : Nat) : digits n ≠ [] := Nat.toDigits_ne_nil

/-! ### Literals without sign and exponent -/

section Literal

variable {whole fraction : List Char}

theorem splitSign_of_isDigit {c : Char} (h : c.isDigit = true) (cs : List Char) :
    splitSign (c :: cs) = (false, c :: cs) := by
  unfold splitSign
  split
  · next heq => cases heq; exact absurd h (by decide)
  · next heq => cases heq; exact absurd h (by decide)
  · rfl

theorem splitMantissa_whole (h : ∀ c ∈ whole, c.isDigit = true) : splitMantissa whole = (whole, [], []) := by
  have hdrop : whole.dropWhile Char.isDigit = [] := List.dropWhile_eq_nil_iff.2 h
  rw [splitMantissa, hdrop, List.takeWhile_eq_self_iff.2 h]

theorem splitMantissa_point (hw : ∀ c ∈ whole, c.isDigit = true) (hf : ∀ c ∈ fraction, c.isDigit = true) :
    splitMantissa (whole ++ '.' :: fraction) = (whole, fraction, []) := by
  have hpoint : ¬('.'.isDigit = true) := by decide
  rw [splitMantissa, List.dropWhile_append_of_pos hw, List.takeWhile_append_of_pos hw,
    List.dropWhile_cons_of_neg hpoint, List.takeWhile_cons_of_neg hpoint, List.append_nil]
  simp only [List.takeWhile_eq_self_iff.2 hf, List.dropWhile_eq_nil_iff.2 hf]

theorem ofLiteral?_whole (hne : whole ≠ []) (h : ∀ c ∈ whole, c.isDigit = true) :
    ofLiteral? whole = some ⟨false, natOfDigits whole, 0⟩ := by
  obtain ⟨c, cs, rfl⟩ := List.exists_cons_of_ne_nil hne
  have hsign := splitSign_of_isDigit (h c (by simp)) cs
  simp only [ofLiteral?, hsign, splitMantissa_whole h]
  simp [readExponent]

theorem ofLiteral?_point (hne : whole ≠ []) (hw : ∀ c ∈ whole, c.isDigit = true)
    (hf : ∀ c ∈ fraction, c.isDigit = true) :
    ofLiteral? (whole ++ '.' :: fraction) = some ⟨false, natOfDigits (whole ++ fraction), -fraction.length⟩ := by
  have hsign : splitSign (whole ++ '.' :: fraction) = (false, whole ++ '.' :: fraction) := by
    obtain ⟨c, cs, rfl⟩ := List.exists_cons_of_ne_nil hne
    exact splitSign_of_isDigit (hw c (by simp)) _
  simp only [ofLiteral?, hsign, splitMantissa_point hw hf]
  simp [readExponent, hne]

end Literal

/-! ### Moving zeros between coefficient and exponent -/

theorem magnitude_neg (negative : Bool) (n k : Nat) : magnitude ⟨negative, n, -k⟩ = nearest n (tenTo k) := by
  have hup : (-(k : Int)).toNat = 0 := by omega
  have hdown : (-(-(k : Int))).toNat = k := by omega
  simp only [magnitude, hup, hdown]
  rw [show tenTo 0 = 1 from rfl, Nat.mul_one]

theorem magnitude_ten_mul (negative : Bool) (n : Nat) (e : Int) :
    magnitude ⟨negative, n * 10, e⟩ = magnitude ⟨negative, n, e + 1⟩ := by
  refine nearest_congr (tenTo_pos _) (tenTo_pos _) ?_
  dsimp only
  rcases Int.lt_or_le e 0 with hneg | hpos
  · have hup : (-e).toNat = (-(e + 1)).toNat + 1 := by omega
    have hzero : e.toNat = 0 ∧ (e + 1).toNat = 0 := by omega
    rw [hup, hzero.1, hzero.2, tenTo_succ]
    ac_rfl
  · have hup : (e + 1).toNat = e.toNat + 1 := by omega
    have hzero : (-e).toNat = 0 ∧ (-(e + 1)).toNat = 0 := by omega
    rw [hup, hzero.1, hzero.2, tenTo_succ]
    ac_rfl

theorem magnitude_mul_tenTo (negative : Bool) (n k : Nat) (e : Int) :
    magnitude ⟨negative, n * tenTo k, e⟩ = magnitude ⟨negative, n, e + k⟩ := by
  induction k generalizing e with
  | zero => simp [tenTo]
  | succ k ih =>
    rw [tenTo_succ, ← Nat.mul_assoc, magnitude_ten_mul, ih]
    congr 2
    omega

theorem magnitude_trimZeros (negative : Bool) (n : Nat) (e : Int) :
    magnitude ⟨negative, (trimZeros n e).1, (trimZeros n e).2⟩ = magnitude ⟨negative, n, e⟩ := by
  fun_induction trimZeros n e with
  | case1 n e h ih =>
    rw [ih, ← magnitude_ten_mul, Nat.div_mul_cancel (Nat.dvd_of_mod_eq_zero h.2)]
  | case2 n e h => rfl

/-! ### The fewest digits -/

theorem magnitude_of_shortestWith {tie : Tie} {bits digits n : Nat} {e : Int} (negative : Bool)
    (h : shortestWith tie bits digits = some (n, e)) : magnitude ⟨negative, n, e⟩ = bits := by
  unfold shortestWith at h
  obtain ⟨hreads, heq⟩ := Option.ite_none_right_eq_some.1 h
  obtain ⟨rfl, rfl⟩ := Prod.mk.inj (Option.some.inj heq)
  refine Eq.trans ?_ hreads
  rw [Int.sub_eq_add_neg, Int.add_comm, ← magnitude_mul_tenTo, magnitude_neg]

theorem tenTo_eq_mul_twoTo (k : Nat) : tenTo k = Nat.pow 5 k * twoTo k := Nat.mul_pow 5 2 k

/-- A whole number of units of `2 ^ -k` has `k` digits after the point. -/
theorem magnitude_mul_powFive (negative : Bool) (n k : Nat) :
    magnitude ⟨negative, n * Nat.pow 5 k, -k⟩ = nearest n (twoTo k) := by
  rw [magnitude_neg]
  refine nearest_congr (tenTo_pos k) (twoTo_pos k) ?_
  rw [tenTo_eq_mul_twoTo k, Nat.mul_assoc]

theorem magnitude_expansion (negative : Bool) {bits : Nat} (h : bits < infinity) :
    magnitude ⟨negative, (expansion bits).1, (expansion bits).2⟩ = bits :=
  (magnitude_mul_powFive negative (units bits) 1074).trans (nearest_units h)

theorem magnitude_found (tie : Tie) (negative : Bool) {bits : Nat} (h : bits < infinity) {found : Nat × Int}
    (hfound : ((List.range' 1 17).findSome? (shortestWith tie bits)).getD (expansion bits) = found) :
    magnitude ⟨negative, found.1, found.2⟩ = bits := by
  cases hsome : (List.range' 1 17).findSome? (shortestWith tie bits) with
  | none =>
    rw [hsome, Option.getD_none] at hfound
    rw [← hfound]
    exact magnitude_expansion negative h
  | some p =>
    rw [hsome, Option.getD_some] at hfound
    obtain ⟨digits, -, hdigits⟩ := List.exists_of_findSome?_eq_some hsome
    rw [← hfound]
    exact magnitude_of_shortestWith negative hdigits

theorem magnitude_shortest (tie : Tie) (negative : Bool) {bits : Nat} (h : bits < infinity) :
    magnitude ⟨negative, (shortest tie bits).1, (shortest tie bits).2⟩ = bits := by
  unfold shortest
  generalize hfound : Option.getD _ (expansion bits) = found
  exact (magnitude_trimZeros negative _ _).trans (magnitude_found tie negative h hfound)

/-! ### Digits written out -/

/-- A text that a formula reads as one number: digits and points, and a literal of this magnitude. -/
structure Reads (cs : List Char) (bits : Nat) : Prop where
  ne_nil : cs ≠ []
  numeral : ∀ c ∈ cs, c.isDigit = true ∨ c = '.'
  literal : ∃ d, ofLiteral? cs = some d ∧ d.negative = false ∧ d.magnitude = bits

theorem isDigit_zeros_append {ds : List Char} (h : ∀ c ∈ ds, c.isDigit = true) (k : Nat) :
    ∀ c ∈ List.replicate k '0' ++ ds, c.isDigit = true := by
  intro c hc
  rcases List.mem_append.1 hc with hc | hc
  · rw [List.eq_of_mem_replicate hc]
    rfl
  · exact h c hc

theorem reads_whole {ds : List Char} (hne : ds ≠ []) (h : ∀ c ∈ ds, c.isDigit = true) :
    Reads ds (magnitude ⟨false, natOfDigits ds, 0⟩) :=
  ⟨hne, fun c hc => .inl (h c hc), _, ofLiteral?_whole hne h, rfl, rfl⟩

theorem reads_point {whole fraction : List Char} (hne : whole ≠ []) (hw : ∀ c ∈ whole, c.isDigit = true)
    (hf : ∀ c ∈ fraction, c.isDigit = true) :
    Reads (whole ++ '.' :: fraction) (magnitude ⟨false, natOfDigits (whole ++ fraction), -fraction.length⟩) := by
  refine ⟨by simp, ?_, _, ofLiteral?_point hne hw hf, rfl, rfl⟩
  intro c hc
  rcases List.mem_append.1 hc with hc | hc
  · exact .inl (hw c hc)
  · rcases List.mem_cons.1 hc with rfl | hc
    · exact .inr rfl
    · exact .inl (hf c hc)

/-- A whole number is its digits with zeros behind. -/
theorem reads_positional_ofNat (n zeros : Nat) :
    Reads (positional n (.ofNat zeros)) (magnitude ⟨false, n, .ofNat zeros⟩) := by
  have hall : ∀ c ∈ digits n ++ List.replicate zeros '0', c.isDigit = true := by
    intro c hc
    rcases List.mem_append.1 hc with hc | hc
    · exact isDigit_of_mem_digits hc
    · rw [List.eq_of_mem_replicate hc]
      rfl
  have hne : digits n ++ List.replicate zeros '0' ≠ [] := by simp [digits_ne_nil]
  have hvalue : magnitude ⟨false, natOfDigits (digits n ++ List.replicate zeros '0'), 0⟩ =
      magnitude ⟨false, n, .ofNat zeros⟩ := by
    rw [natOfDigits_append_zeros, natOfDigits_digits, magnitude_mul_tenTo, Int.zero_add]
    rfl
  rw [← hvalue]
  exact reads_whole hne hall

/-- Digits of `n`, with zeros in front so that there is one more than `k + 1` at least. -/
structure Padded (n k : Nat) (ds : List Char) : Prop where
  digits : ∀ c ∈ ds, c.isDigit = true
  value : natOfDigits ds = n
  length : k + 2 ≤ ds.length

theorem padded_digits (n k : Nat) : Padded n k (List.replicate (k + 2 - (digits n).length) '0' ++ digits n) := by
  refine ⟨isDigit_zeros_append (fun c hc => isDigit_of_mem_digits hc) _, ?_, ?_⟩
  · rw [natOfDigits_zeros_append, natOfDigits_digits]
  · rw [List.length_append, List.length_replicate]
    omega

namespace Padded

variable {n k : Nat} {ds : List Char}

/-- The last `k + 1` digits stand behind the point. -/
theorem length_fraction (h : Padded n k ds) : (ds.drop (ds.length - (k + 1))).length = k + 1 := by
  have hlength := h.length
  rw [List.length_drop]
  omega

theorem fraction_ne_nil (h : Padded n k ds) : ds.drop (ds.length - (k + 1)) ≠ [] := by
  rw [← List.length_pos_iff, h.length_fraction]
  exact Nat.succ_pos k

/-- A digit is left before the point. -/
theorem whole_ne_nil (h : Padded n k ds) : ds.take (ds.length - (k + 1)) ≠ [] := by
  have hlength := h.length
  rw [← List.length_pos_iff, List.length_take]
  omega

end Padded

/-- Any other number has `k + 1` digits behind the point. -/
theorem reads_positional_negSucc (n k : Nat) :
    Reads (positional n (.negSucc k)) (magnitude ⟨false, n, .negSucc k⟩) := by
  have hpadded := padded_digits n k
  simp only [positional]
  generalize List.replicate (k + 2 - (digits n).length) '0' ++ digits n = padded at hpadded
  have hw : ∀ c ∈ padded.take (padded.length - (k + 1)), c.isDigit = true :=
    fun c hc => hpadded.digits c (List.mem_of_mem_take hc)
  have hf : ∀ c ∈ padded.drop (padded.length - (k + 1)), c.isDigit = true :=
    fun c hc => hpadded.digits c (List.mem_of_mem_drop hc)
  have hreads := reads_point hpadded.whole_ne_nil hw hf
  rw [List.take_append_drop, hpadded.value, hpadded.length_fraction] at hreads
  exact hreads

theorem reads_positional (n : Nat) (e : Int) : Reads (positional n e) (magnitude ⟨false, n, e⟩) := by
  cases e with
  | ofNat zeros => exact reads_positional_ofNat n zeros
  | negSucc k => exact reads_positional_negSucc n k

end Decimal

namespace Number

open Binary64 Decimal

theorem reads_unsignedChars {bits : Nat} (h : bits < infinity) : Reads (unsignedChars bits) bits := by
  by_cases hzero : bits = 0
  · have hdigit : ∀ c ∈ ['0'], c.isDigit = true := by simp
    have hreads := reads_whole (by simp) hdigit
    rw [show magnitude ⟨false, natOfDigits ['0'], 0⟩ = nearest 0 (tenTo 0) from rfl, nearest_zero] at hreads
    rw [unsignedChars, if_pos hzero, hzero]
    exact hreads
  · have hreads := reads_positional (shortest .up bits).1 (shortest .up bits).2
    rw [magnitude_shortest .up false h] at hreads
    rw [unsignedChars, if_neg hzero]
    exact hreads

/-- A finite number is written with a minus sign exactly when it is below zero. -/
theorem chars_of_isFinite {x : Float} (h : isFinite x = true) :
    chars x =
      if isNegative x = true ∧ magnitude x ≠ 0 then '-' :: unsignedChars (magnitude x)
      else unsignedChars (magnitude x) := by
  have hlt : Binary64.magnitude x < infinity := of_decide_eq_true h
  have hnotNan : ¬infinity < Binary64.magnitude x := Nat.not_lt_of_lt hlt
  have hnotInf : Binary64.magnitude x ≠ infinity := Nat.ne_of_lt hlt
  simp only [chars, if_neg hnotNan, if_neg hnotInf, Bool.and_eq_true, decide_eq_true_eq]

/-- The number that the text of a number denotes: both zeros are written as zero. -/
def written (x : Float) : Float := if magnitude x = 0 then 0 else x

@[simp] theorem magnitude_written (x : Float) : magnitude (written x) = magnitude x := by
  unfold written
  split
  · next h =>
    rw [h]
    decide +kernel
  · rfl

theorem isNegative_written (x : Float) : isNegative (written x) = (isNegative x && magnitude x ≠ 0) := by
  unfold written
  split
  · next h =>
    simp only [h]
    rw [show isNegative 0 = false by decide +kernel]
    simp
  · next h => simp [h]

@[simp] theorem chars_written (x : Float) : chars (written x) = chars x := by
  unfold chars
  simp only [magnitude_written, isNegative_written]
  by_cases hzero : magnitude x = 0 <;> simp [hzero]

end Number

end FormulaBar
