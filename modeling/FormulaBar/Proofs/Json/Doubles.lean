import FormulaBar.Proofs.Json.Literals
import FormulaBar.Proofs.Number.Arithmetic
import FormulaBar.Proofs.Number.Shortest

/-!
# FormulaBar.Proofs.Json.Doubles — what a double is read back as

A double is written as a literal that denotes it exactly (`NumberLiteral.denotes_ofFloat`). It is read by rounding the
digits to a double and multiplying or dividing it once in every 308 places, and each of these rounds. So a finite double
comes back as a finite one of the same sign (`exists_reread?`), and as itself if the digits and the power of ten are
doubles before the one operation (`reread?_of_roundsOnce`).
-/

namespace FormulaBar.Json

open Decimal
open Binary64 (units unitsPerOne infinity isFinite isNegative ofMagnitude)

variable {x : Float} {n k : Nat}

/-! ### Whole numbers and powers of ten as doubles -/

theorem magnitude_natCast (negative : Bool) (n k : Nat) :
    magnitude ⟨negative, n, k⟩ = Binary64.nearest (n * tenTo k) 1 := by
  rw [← Int.zero_add (k : Int), ← magnitude_mul_tenTo]
  exact magnitude_neg negative _ 0

namespace Number

theorem nearest_eq (n : Nat) : Number.nearest n = ofMagnitude false (Binary64.nearest n 1) :=
  congrArg (ofMagnitude false) (magnitude_neg false n 0)

@[simp] theorem magnitude_nearest (n : Nat) : Binary64.magnitude (Number.nearest n) = Binary64.nearest n 1 := by
  rw [nearest_eq, Binary64.magnitude_ofMagnitude (Binary64.nearest_le_infinity n 1)]

@[simp] theorem isNegative_nearest (n : Nat) : isNegative (Number.nearest n) = false := by
  rw [nearest_eq, Binary64.isNegative_ofMagnitude (Binary64.nearest_le_infinity n 1)]

theorem isFinite_nearest_iff (n : Nat) :
    isFinite (Number.nearest n) = true ↔ Binary64.nearest n 1 < infinity := by
  rw [isFinite, magnitude_nearest, decide_eq_true_iff]

/-- The powers of ten of one step are finite. -/
theorem nearest_tenTo_lt (h : k ≤ 308) : Binary64.nearest (tenTo k) 1 < infinity := by
  have hgreatest : Binary64.nearest (tenTo 308) 1 < infinity := by decide +kernel
  exact Nat.lt_of_le_of_lt (Binary64.nearest_one_le_of_le (tenTo_le_tenTo h)) hgreatest

/-- The powers of ten up to the twenty-second are doubles, since the powers of five fit a mantissa. -/
theorem isWhole_tenTo (h : k ≤ 22) : Binary64.IsWhole (tenTo k) := by
  have hfive : Nat.pow 5 k < 2 ^ 53 :=
    calc 5 ^ k ≤ 5 ^ 22 := Nat.pow_le_pow_right (by decide) h
      _ < 2 ^ 53 := by decide
  rw [tenTo_eq_mul_twoTo]
  exact Binary64.isWhole_mul_twoTo hfive (by omega)

theorem unitsPerOne_le_units_tenTo (h : k ≤ 308) :
    unitsPerOne ≤ units (Binary64.nearest (tenTo k) 1) := by
  have hone : units (Binary64.nearest (tenTo 0) 1) = unitsPerOne := by decide +kernel
  rw [← hone]
  exact Binary64.units_le_units (Binary64.nearest_one_le_of_le (tenTo_le_tenTo (Nat.zero_le k))) (nearest_tenTo_lt h)

end Number

/-! ### Scaling -/

namespace NumberLiteral

/-- A double that is divided by a power of ten. -/
theorem div_tenTo (hx : isFinite x = true) (hk : k ≤ 308) :
    x / Number.nearest (tenTo k) = ofMagnitude (isNegative x)
      (Binary64.nearest (units (Binary64.magnitude x)) (units (Binary64.nearest (tenTo k) 1))) := by
  have hunits := Number.unitsPerOne_le_units_tenTo hk
  have hzero : Binary64.nearest (tenTo k) 1 ≠ 0 := by
    intro hzero
    rw [hzero, Binary64.units_zero] at hunits
    exact absurd hunits (Nat.not_le_of_lt Binary64.unitsPerOne_pos)
  rw [Binary64.div_eq hx ((Number.isFinite_nearest_iff _).2 (Number.nearest_tenTo_lt hk))
    (by rwa [Number.magnitude_nearest]), Number.magnitude_nearest, Number.isNegative_nearest, Bool.bne_false]

/-- Division by a power of ten does not leave the doubles, and keeps the sign. -/
theorem isFinite_div_tenTo (hx : isFinite x = true) (hk : k ≤ 308) :
    isFinite (x / Number.nearest (tenTo k)) = true ∧
      isNegative (x / Number.nearest (tenTo k)) = isNegative x := by
  have hone := Binary64.unitsPerOne_pos
  have hunits := Number.unitsPerOne_le_units_tenTo hk
  have hfinite : Binary64.magnitude x < infinity := of_decide_eq_true hx
  have hle := Binary64.nearest_le_nearest (hone.trans_le hunits) hone
    (Nat.mul_le_mul_left (units (Binary64.magnitude x)) hunits)
  rw [Binary64.nearest_units hfinite] at hle
  have hlt := hle.trans_lt hfinite
  rw [div_tenTo hx hk, Binary64.isNegative_ofMagnitude hlt.le, Binary64.isFinite_ofMagnitude hlt.le]
  exact ⟨decide_eq_true hlt, rfl⟩

/-- To scale down always gives a double. -/
theorem exists_scale_of_neg {e : Int} (he : e < 0) (hx : isFinite x = true) :
    ∃ y, scale x e = some y ∧ isFinite y = true ∧ isNegative y = isNegative x := by
  fun_induction scale x e with
  | case1 x e hnear _ =>
    exact ⟨_, rfl, isFinite_div_tenTo hx hnear⟩
  | case2 | case3 | case5 => omega
  | case4 x e _ _ => exact ⟨x, rfl, hx, rfl⟩
  | case6 x e hfar _ _ ih =>
    obtain ⟨hfinite, hsign⟩ := isFinite_div_tenTo hx (Nat.le_refl 308)
    rw [← hsign]
    exact ih (by omega) hfinite

/-- The digits of the greatest double are `17976931348623157`, and its power of ten is `292`. -/
def greatest : Nat := 17976931348623157 * tenTo 292

/-- Seventeen digits are scaled up to doubles as long as they do not exceed the greatest double. -/
theorem product_lt (hn : n ≤ tenTo 17) (h : n * tenTo k ≤ greatest) (hk : k ≤ 308) :
    Binary64.nearest (units (Binary64.nearest n 1) * units (Binary64.nearest (tenTo k) 1))
      (unitsPerOne * unitsPerOne) < infinity := by
  -- up to the 291st power the digits are the bound, and from there on the greatest double
  have htable : ∀ j < 18, Binary64.nearest (greatest / tenTo (291 + j)) 1 < infinity ∧
      Binary64.nearest (units (Binary64.nearest (greatest / tenTo (291 + j)) 1) *
        units (Binary64.nearest (tenTo (291 + j)) 1))
        (unitsPerOne * unitsPerOne) < infinity := by decide +kernel
  obtain ⟨j, hj, hkj, hnj⟩ : ∃ j < 18, k ≤ 291 + j ∧ n ≤ greatest / tenTo (291 + j) := by
    rcases Nat.le_total k 291 with hlow | hhigh
    · have hdigits : tenTo 17 ≤ greatest / tenTo (291 + 0) := by decide +kernel
      exact ⟨0, by decide, hlow, hn.trans hdigits⟩
    · obtain ⟨j, rfl⟩ := Nat.exists_eq_add_of_le hhigh
      exact ⟨j, by omega, Nat.le_refl _, (Nat.le_div_iff_mul_le (tenTo_pos _)).2 h⟩
  obtain ⟨hfinite, hproduct⟩ := htable j hj
  have hone := Nat.mul_pos Binary64.unitsPerOne_pos Binary64.unitsPerOne_pos
  have hdigits := Binary64.units_le_units (Binary64.nearest_one_le_of_le hnj) hfinite
  have hpower := Binary64.units_le_units (Binary64.nearest_one_le_of_le (tenTo_le_tenTo hkj))
    (Number.nearest_tenTo_lt (show 291 + j ≤ 308 by omega))
  refine Nat.lt_of_le_of_lt (Binary64.nearest_le_nearest hone hone ?_) hproduct
  exact Nat.mul_le_mul_right _ (Nat.mul_le_mul hdigits hpower)

/-- A whole number of a few digits that is multiplied by a power of ten. -/
theorem mul_tenTo (hn : Binary64.nearest n 1 < infinity) (hk : k ≤ 308) :
    Number.nearest n * Number.nearest (tenTo k) = ofMagnitude false
      (Binary64.nearest (units (Binary64.nearest n 1) * units (Binary64.nearest (tenTo k) 1))
        (unitsPerOne * unitsPerOne)) := by
  rw [Binary64.mul_eq ((Number.isFinite_nearest_iff n).2 hn)
    ((Number.isFinite_nearest_iff _).2 (Number.nearest_tenTo_lt hk))]
  simp only [Number.magnitude_nearest, Number.isNegative_nearest, bne_self_eq_false]

/-- To scale up by at most 308 places is to multiply, unless the product is no double. -/
theorem scale_natCast (hk : k ≤ 308) {bits : Nat} (hbits : bits < infinity)
    (h : x * Number.nearest (tenTo k) = ofMagnitude false bits) :
    scale x k = some (ofMagnitude false bits) := by
  have hnear : (k : Int).natAbs ≤ 308 := hk
  have hpos : ¬(k : Int) < 0 := by omega
  have hmagnitude := @Binary64.magnitude_ofMagnitude false bits hbits.le
  rw [scale, if_pos hnear, if_neg hpos]
  simp only [Int.natAbs_natCast, h, hmagnitude, if_neg hbits.ne]

theorem scale_neg (hk : k ≤ 308) (hpos : 0 < k) : scale x (-k) = some (x / Number.nearest (tenTo k)) := by
  have hnear : (-k : Int).natAbs ≤ 308 := by omega
  have hneg : (-k : Int) < 0 := by omega
  rw [scale, if_pos hnear, if_pos hneg, show (-k : Int).natAbs = k by omega]

/-- Digits and a power of ten that are doubles are rounded only together. -/
theorem scale_eq_some {e : Int} (hn : Binary64.IsWhole n) (he : e.natAbs ≤ 22)
    (hfinite : magnitude ⟨false, n, e⟩ < infinity) :
    scale (Number.nearest n) e = some (ofMagnitude false (magnitude ⟨false, n, e⟩)) := by
  have hone := Binary64.unitsPerOne_pos
  rcases Int.lt_or_le e 0 with hneg | hpos
  -- a division: both operands are exact, so the quotient is rounded once
  · obtain ⟨k, rfl⟩ : ∃ k : Nat, e = -k := ⟨e.natAbs, by omega⟩
    have hk : k ≤ 22 := by omega
    have hvalue : magnitude ⟨false, n, -k⟩ =
        Binary64.nearest (n * unitsPerOne) (tenTo k * unitsPerOne) := by
      rw [magnitude_neg, Nat.mul_comm n, Nat.mul_comm (tenTo k), Binary64.nearest_mul_left hone]
    rw [scale_neg (by omega) (by omega), div_tenTo ((Number.isFinite_nearest_iff n).2 hn.1) (by omega),
      Number.isNegative_nearest, Number.magnitude_nearest, hn.2, (Number.isWhole_tenTo hk).2, hvalue]
  -- a product, for the same reason
  · obtain ⟨k, rfl⟩ := Int.eq_ofNat_of_zero_le hpos
    have hk : k ≤ 22 := he
    have hvalue : magnitude ⟨false, n, k⟩ = Binary64.nearest
        (n * unitsPerOne * (tenTo k * unitsPerOne)) (unitsPerOne * unitsPerOne) := by
      rw [magnitude_natCast]
      exact Binary64.nearest_congr (by decide) (Nat.mul_pos hone hone) (by ring)
    refine scale_natCast (by omega) hfinite ?_
    rw [mul_tenTo hn.1 (by omega), hn.2, (Number.isWhole_tenTo hk).2, hvalue]

/-! ### Literals with a point or a power -/

variable {l : NumberLiteral} {bits : Nat}

/-- The digits of a literal as one whole number. -/
def significand (l : NumberLiteral) : Nat := natOfDigits (l.whole ++ l.fraction)

/-- The power of ten of the last digit. -/
def lastPower (l : NumberLiteral) : Int := l.power - l.fraction.length

/-- If the digits fit a word, they are scaled as one whole number. -/
theorem value?_eq_map (hplain : l.isPlain = false) (hfits : l.significand ≤ greatestWord) :
    l.value? = (scale (Number.nearest l.significand) l.lastPower).map fun x =>
      .float (if l.negative then -x else x) := by
  have hfold : l.significand =
      l.fraction.foldl (fun n c => 10 * n + digitValue c) (natOfDigits l.whole) := List.foldl_append
  have hwhole : readWord 0 l.whole = (natOfDigits l.whole, []) :=
    readWord_of_le ((foldl_digits_le _ l.fraction).trans (hfold ▸ hfits))
  have hfraction : readWord (natOfDigits l.whole) l.fraction = (l.significand, []) := by
    rw [readWord_of_le (by rwa [← hfold]), ← hfold]
  have hpower : ((0 : Nat) : Int) - (l.fraction.length - (0 : Nat)) + l.power = l.lastPower := by
    rw [lastPower]
    omega
  simp only [value?, hplain, Bool.false_and, hwhole, hfraction, List.length_nil, hpower]
  rfl

/-- What a double of this magnitude is written as: no plain number, with digits that denote it and fit a word, and no
greater than a double can be. -/
structure Denotes (l : NumberLiteral) (bits : Nat) : Prop where
  isPlain : l.isPlain = false
  value : magnitude ⟨false, l.significand, l.lastPower⟩ = bits
  significand_le : l.significand ≤ tenTo 17
  scaled_le : ∀ k : Nat, l.lastPower = k → k ≤ 308 ∧ l.significand * tenTo k ≤ greatest

/-- The digits of the greatest double bound those of any other. -/
theorem shortest_mul_le (hbits : bits < infinity) (h : (shortest .even bits).2 = k) :
    (shortest .even bits).1 * tenTo k ≤ greatest := by
  have hlast : shortest .even (infinity - 1) = (17976931348623157, 292) := by decide +kernel
  have hgreatest : Binary64.nearest greatest 1 = infinity - 1 := by decide +kernel
  by_contra hlt
  have hvalue := magnitude_shortest .even false hbits
  have hle := Binary64.nearest_one_le_of_le (Nat.le_of_not_le hlt)
  rw [h, magnitude_natCast] at hvalue
  rw [hvalue, hgreatest] at hle
  obtain rfl : bits = infinity - 1 := by omega
  rw [hlast] at h hlt
  obtain rfl : 292 = k := Int.ofNat.inj h
  exact hlt (Nat.mul_le_mul_right _ (Nat.le_refl 17976931348623157))

/-- No power of ten beyond the 308th is a double. -/
theorem le_of_mul_tenTo_le (hn : n ≠ 0) (h : n * tenTo k ≤ greatest) : k ≤ 308 := by
  have hgreatest : greatest < tenTo 309 := by decide +kernel
  have hpower : tenTo k < tenTo 309 :=
    calc tenTo k ≤ n * tenTo k := Nat.le_mul_of_pos_left _ (Nat.pos_of_ne_zero hn)
      _ ≤ greatest := h
      _ < tenTo 309 := hgreatest
  exact Nat.le_of_lt_succ (lt_of_tenTo_lt hpower)

theorem power_scientific (negative : Bool) (n : Nat) (e : Int) :
    (scientific negative n e).power = leadingPower n e := by
  simp only [power, scientific, natOfDigits_digits]
  by_cases hneg : leadingPower n e < 0
  · simp only [hneg, decide_true, if_true]
    omega
  · simp only [hneg, decide_false, Bool.false_eq_true, if_false]
    omega

theorem denotes_scientific (negative : Bool) {e : Int} (hvalue : magnitude ⟨false, n, e⟩ = bits) (hn : n ≤ tenTo 17)
    (hscaled : ∀ k : Nat, e = k → k ≤ 308 ∧ n * tenTo k ≤ greatest) : (scientific negative n e).Denotes bits := by
  have hsignificand : (scientific negative n e).significand = n := by
    rw [significand, scientific, List.take_append_drop, natOfDigits_digits]
  have hlast : (scientific negative n e).lastPower = e := by
    have hlength := List.length_pos_of_ne_nil (digits_ne_nil n)
    rw [lastPower, power_scientific, scientific, List.length_drop, leadingPower]
    omega
  refine ⟨Bool.and_false _, ?_, ?_, ?_⟩ <;> rw [hsignificand]
  · rw [hlast, hvalue]
  · exact hn
  · rwa [hlast]

theorem denotes_positional_ofNat (negative : Bool) {zeros : Nat} (hvalue : magnitude ⟨false, n, zeros⟩ = bits)
    (hshort : leadingPower n zeros ≤ 15) : (positional negative n zeros).Denotes bits := by
  have hsignificand : (positional negative n zeros).significand = n * tenTo (zeros + 1) := by
    show natOfDigits (digits n ++ List.replicate zeros '0' ++ List.replicate 1 '0') = _
    rw [List.append_assoc, List.replicate_append_replicate, natOfDigits_append_zeros, natOfDigits_digits]
  have hlast : (positional negative n zeros).lastPower = -1 := rfl
  refine ⟨rfl, ?_, ?_, ?_⟩
  · have hpower : -1 + ((zeros + 1 : Nat) : Int) = zeros := by omega
    rw [hsignificand, hlast, magnitude_mul_tenTo, hpower, hvalue]
  · rw [leadingPower] at hshort
    have hlength := List.length_pos_of_ne_nil (digits_ne_nil n)
    have hdigits : n < tenTo (digits n).length := (Nat.length_toDigits_le_iff (by decide) hlength).1 (Nat.le_refl _)
    rw [hsignificand]
    calc n * tenTo (zeros + 1) ≤ tenTo (digits n).length * tenTo (zeros + 1) := Nat.mul_le_mul_right _ hdigits.le
      _ = tenTo ((digits n).length + (zeros + 1)) := (tenTo_add _ _).symm
      _ ≤ tenTo 17 := tenTo_le_tenTo (by omega)
  · intro k hk
    rw [hlast] at hk
    omega

theorem denotes_positional_negSucc (negative : Bool) (hvalue : magnitude ⟨false, n, .negSucc k⟩ = bits)
    (hn : n ≤ tenTo 17) : (positional negative n (.negSucc k)).Denotes bits := by
  have hpadded := padded_digits n k
  have hsignificand : (positional negative n (.negSucc k)).significand = n := by
    simp only [significand, positional, List.take_append_drop, hpadded.value]
  have hlast : (positional negative n (.negSucc k)).lastPower = .negSucc k := by
    simp only [lastPower, power, positional, hpadded.length_fraction]
    omega
  refine ⟨?_, ?_, ?_, ?_⟩
  · rw [isPlain, positional, List.isEmpty_eq_false_iff.2 hpadded.fraction_ne_nil, Bool.false_and]
  · rw [hsignificand, hlast, hvalue]
  · rwa [hsignificand]
  · intro j hj
    rw [hlast] at hj
    omega

theorem denotes_ofDecimal (negative : Bool) {e : Int} (hvalue : magnitude ⟨false, n, e⟩ = bits) (hn : n ≤ tenTo 17)
    (hscaled : ∀ k : Nat, e = k → k ≤ 308 ∧ n * tenTo k ≤ greatest) : (ofDecimal negative n e).Denotes bits := by
  unfold ofDecimal
  split
  · exact denotes_scientific negative hvalue hn hscaled
  · next hshort =>
    cases e with
    | ofNat zeros => exact denotes_positional_ofNat negative hvalue (Int.not_lt.1 (not_or.1 hshort).2)
    | negSucc k => exact denotes_positional_negSucc negative hvalue hn

/-- A finite double is written as what denotes it. -/
theorem denotes_ofFloat (hx : isFinite x = true) : (ofFloat x).Denotes (Binary64.magnitude x) := by
  have hfinite : Binary64.magnitude x < infinity := of_decide_eq_true hx
  by_cases hzero : Binary64.magnitude x = 0
  · rw [ofFloat, if_pos hzero, hzero]
    refine ⟨rfl, Binary64.nearest_zero _, Nat.zero_le _, fun k hk => ?_⟩
    have hlast : lastPower ⟨isNegative x, ['0'], ['0'], none⟩ = -1 := rfl
    rw [hlast] at hk
    omega
  · rw [ofFloat, if_neg hzero]
    refine denotes_ofDecimal _ (magnitude_shortest .even false hfinite) (shortest_le .even hzero hfinite) fun k hk => ?_
    have hscaled := shortest_mul_le hfinite hk
    exact ⟨le_of_mul_tenTo_le (shortest_ne_zero .even hfinite hzero) hscaled, hscaled⟩

/-! ### What a double is read back as -/

/-- Digits and power of ten are doubles, so only their product or quotient is rounded. -/
structure RoundsOnce (l : NumberLiteral) : Prop where
  significand : Binary64.IsWhole l.significand
  lastPower : l.lastPower.natAbs ≤ 22

/-- A finite double without a sign, with the sign of the literal. -/
theorem signed_eq (hx : isFinite x = true) (hsign : isNegative x = false) (negative : Bool) :
    (if negative then -x else x) = ofMagnitude negative (Binary64.magnitude x) := by
  cases negative with
  | false =>
    have hself := Binary64.ofMagnitude_magnitude x
    rw [hsign] at hself
    rw [hself, if_neg Bool.false_ne_true]
  | true => rw [if_pos rfl, Binary64.neg_eq hx, hsign, Bool.not_false]

theorem Denotes.significand_le_greatestWord (h : l.Denotes bits) : l.significand ≤ greatestWord :=
  h.significand_le.trans (by decide)

/-- What a finite double is written as is not too large to be read. -/
theorem Denotes.exists_scale (h : l.Denotes bits) : ∃ y, scale (Number.nearest l.significand) l.lastPower = some y ∧
    isFinite y = true ∧ isNegative y = false := by
  have hfinite : Binary64.nearest l.significand 1 < infinity :=
    (Binary64.nearest_one_le_of_le h.significand_le).trans_lt (Number.nearest_tenTo_lt (by decide))
  rcases Int.lt_or_le l.lastPower 0 with hneg | hpos
  · rw [← Number.isNegative_nearest l.significand]
    exact exists_scale_of_neg hneg ((Number.isFinite_nearest_iff _).2 hfinite)
  · obtain ⟨k, hk⟩ := Int.eq_ofNat_of_zero_le hpos
    obtain ⟨hle, hscaled⟩ := h.scaled_le k hk
    have hproduct := product_lt h.significand_le hscaled hle
    refine ⟨_, hk ▸ scale_natCast hle hproduct (mul_tenTo hfinite hle), ?_, ?_⟩
    · rw [Binary64.isFinite_ofMagnitude hproduct.le, decide_eq_true_iff]
      exact hproduct
    · exact Binary64.isNegative_ofMagnitude hproduct.le

theorem Denotes.exists_value? (h : l.Denotes bits) : ∃ y, l.value? = some (.float y) ∧
    isFinite y = true ∧ isNegative y = l.negative := by
  obtain ⟨y, hscale, hfinite, hsign⟩ := h.exists_scale
  have hlt : Binary64.magnitude y < infinity := of_decide_eq_true hfinite
  refine ⟨ofMagnitude l.negative (Binary64.magnitude y), ?_, ?_, Binary64.isNegative_ofMagnitude hlt.le⟩
  · rw [value?_eq_map h.isPlain h.significand_le_greatestWord, hscale, Option.map_some, signed_eq hfinite hsign]
  · rw [Binary64.isFinite_ofMagnitude hlt.le, decide_eq_true_iff]
    exact hlt

theorem Denotes.value?_eq (h : l.Denotes bits) (hbits : bits < infinity) (honce : l.RoundsOnce) :
    l.value? = some (.float (ofMagnitude l.negative bits)) := by
  have hscale := scale_eq_some honce.significand honce.lastPower (by rwa [h.value])
  rw [h.value] at hscale
  have hmagnitude := @Binary64.magnitude_ofMagnitude false bits hbits.le
  have hfinite : isFinite (ofMagnitude false bits) = true := by
    rw [Binary64.isFinite_ofMagnitude hbits.le, decide_eq_true_iff]
    exact hbits
  rw [value?_eq_map h.isPlain h.significand_le_greatestWord, hscale, Option.map_some,
    signed_eq hfinite (Binary64.isNegative_ofMagnitude hbits.le), hmagnitude]

theorem negative_ofDecimal (negative : Bool) (n : Nat) (e : Int) : (ofDecimal negative n e).negative = negative := by
  unfold ofDecimal
  split
  · rfl
  · cases e <;> rfl

theorem negative_ofFloat (x : Float) : (ofFloat x).negative = isNegative x := by
  by_cases hzero : Binary64.magnitude x = 0
  · simp only [ofFloat, if_pos hzero]
  · simp only [ofFloat, if_neg hzero, negative_ofDecimal]

end NumberLiteral

/-- What a finite double is read back as, unless its literal means too large a number. -/
def reread? (x : Float) : Option Float := (NumberLiteral.ofFloat x).value?.map Number.toFloat

/-- A finite double is read back as a finite one of the same sign. -/
theorem exists_reread? (hx : isFinite x = true) :
    ∃ y, reread? x = some y ∧ isFinite y = true ∧ isNegative y = isNegative x := by
  obtain ⟨y, hvalue, hfinite, hsign⟩ := (NumberLiteral.denotes_ofFloat hx).exists_value?
  rw [NumberLiteral.negative_ofFloat] at hsign
  exact ⟨y, by rw [reread?, hvalue]; rfl, hfinite, hsign⟩

/-- A double whose digits and power of ten are doubles is read back as it is. -/
theorem reread?_of_roundsOnce (hx : isFinite x = true) (h : (NumberLiteral.ofFloat x).RoundsOnce) :
    reread? x = some x := by
  have hvalue := (NumberLiteral.denotes_ofFloat hx).value?_eq (of_decide_eq_true hx) h
  rw [NumberLiteral.negative_ofFloat, Binary64.ofMagnitude_magnitude] at hvalue
  rw [reread?, hvalue]
  rfl

end FormulaBar.Json
