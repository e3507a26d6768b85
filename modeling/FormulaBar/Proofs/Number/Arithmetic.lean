import FormulaBar.Proofs.Number.Nearest
import FormulaBar.Proofs.Number.Sign

/-!
# FormulaBar.Proofs.Number.Arithmetic — products and quotients are rounded once

The product and the quotient of two doubles are the doubles nearest to the product and the quotient of their values
(`mul_eq`, `div_eq`). In the logical model a result is a mantissa with two bits that describe what was cut off
(`Describes`), which is shifted until it has a mantissa's length and then rounded.
-/

namespace FormulaBar.Binary64

open Float.Model Float.Model.UnpackedFloat

/-! ### Rounding bits -/

/-- The mantissa is `num / den` without its fraction. The round bit is the first binary place of the fraction, and the
sticky bit says that there is more behind it. -/
structure Describes (em : ExtendedMantissa) (num den : Nat) : Prop where
  mantissa : em.mantissa = num / den
  roundBit : em.roundBit = decide (2 * num / den % 2 ≠ 0)
  stickyBit : em.stickyBit = decide (2 * num % den ≠ 0)

variable {em : ExtendedMantissa} {num den : Nat}

/-- The first binary place of a fraction below one half is zero. -/
theorem two_mul_of_lt (h : 2 * (num % den) < den) :
    2 * num / den = 2 * (num / den) ∧ 2 * num % den = 2 * (num % den) := by
  have hsplit := Nat.div_add_mod num den
  refine (Nat.div_mod_unique (Nat.zero_lt_of_lt h)).2 ⟨?_, h⟩
  rw [Nat.mul_left_comm]
  omega

/-- The first binary place of a fraction from one half on is one. -/
theorem two_mul_of_le (hden : 0 < den) (h : den ≤ 2 * (num % den)) :
    2 * num / den = 2 * (num / den) + 1 ∧ 2 * num % den = 2 * (num % den) - den := by
  have hsplit := Nat.div_add_mod num den
  have hmod := Nat.mod_lt num hden
  refine (Nat.div_mod_unique hden).2 ⟨?_, by omega⟩
  rw [Nat.mul_succ, Nat.mul_left_comm]
  omega

/-- The two bits decide as the fraction does. -/
theorem Describes.rounded (h : Describes em num den) (hden : 0 < den) : em.roundedMantissa = roundEven num den := by
  obtain ⟨mantissa, roundBit, stickyBit⟩ := em
  obtain ⟨rfl, rfl, rfl⟩ := h
  -- below the half the bits round down
  rcases Nat.lt_or_ge (2 * (num % den)) den with hlow | hhigh
  · obtain ⟨hdiv, hmod⟩ := two_mul_of_lt hlow
    have hround : roundEven num den = num / den := if_pos (.inl hlow)
    rw [hround, hdiv, hmod]
    by_cases hrest : 2 * (num % den) = 0 <;>
      simp [ExtendedMantissa.roundedMantissa, ExtendedMantissa.accuracy, Accuracy.roundToNearestEven, hrest]
  · obtain ⟨hdiv, hmod⟩ := two_mul_of_le hden hhigh
    rw [hdiv, hmod]
    -- at the half the last bit decides, and above it the bits round up
    by_cases hhalf : 2 * (num % den) = den
    · have hround : roundEven num den = num / den + num / den % 2 := by
        simp only [roundEven]
        split <;> omega
      have hrest : 2 * (num % den) - den = 0 := by omega
      rw [hround, hrest]
      simp [ExtendedMantissa.roundedMantissa, ExtendedMantissa.accuracy, Accuracy.roundToNearestEven]
    · have hround : roundEven num den = num / den + 1 := if_neg (by omega)
      have hrest : 2 * (num % den) - den ≠ 0 := by omega
      rw [hround]
      simp [ExtendedMantissa.roundedMantissa, ExtendedMantissa.accuracy, Accuracy.roundToNearestEven, hrest]

theorem Describes.shiftRightOne (h : Describes em num den) (hden : 0 < den) :
    Describes em.shiftRightOne num (den * 2) := by
  have hhalf : 2 * num / (den * 2) = num / den := by rw [Nat.mul_comm den, Nat.mul_div_mul_left _ _ (by decide)]
  refine ⟨?_, ?_, ?_⟩
  · show em.mantissa / 2 = _
    rw [h.mantissa, Nat.div_div_eq_div_mul]
  · show (em.mantissa % 2 != 0) = _
    rw [hhalf, h.mantissa]
    exact Bool.eq_iff_iff.2 (by simp)
  · show (em.roundBit || em.stickyBit) = _
    rw [h.roundBit, h.stickyBit, ← Bool.decide_or, Nat.mul_comm den, Nat.mul_mod_mul_left]
    refine decide_eq_decide.2 ?_
    rcases Nat.lt_or_ge (2 * (num % den)) den with hlow | hhigh
    · obtain ⟨hdiv, hmod⟩ := two_mul_of_lt hlow
      omega
    · obtain ⟨hdiv, hmod⟩ := two_mul_of_le hden hhigh
      omega

theorem Describes.shiftRight (h : Describes em num den) (hden : 0 < den) (k : Nat) :
    Describes (em >>> k) num (den * twoTo k) := by
  show Describes (k.repeat ExtendedMantissa.shiftRightOne em) _ _
  induction k with
  | zero => rwa [show den * twoTo 0 = den from Nat.mul_one den]
  | succ k ih =>
    have hnext := ih.shiftRightOne (Nat.mul_pos hden (twoTo_pos k))
    rwa [Nat.mul_assoc] at hnext

/-- The fraction that a division leaves. -/
theorem describes_fraction (num : Nat) (hden : 0 < den) :
    Describes (.ofMantissaAndAccuracy (num / den) (accuracyOfFraction (num % den) den)) num den := by
  have hmod := Nat.mod_lt num hden
  unfold accuracyOfFraction
  -- nothing is left, so both bits are clear
  by_cases hzero : num % den = 0
  · have hlow : 2 * (num % den) < den := by omega
    obtain ⟨hdiv, hrest⟩ := two_mul_of_lt hlow
    rw [if_pos hzero]
    exact ⟨rfl, by simp [ExtendedMantissa.ofMantissaAndAccuracy, hdiv],
      by simp [ExtendedMantissa.ofMantissaAndAccuracy, hrest, hzero]⟩
  · rw [if_neg hzero]
    -- where the rest lies, compared with the half, gives the two bits
    rcases Nat.lt_trichotomy (2 * (num % den)) den with hlow | hhalf | hhigh
    · obtain ⟨hdiv, hrest⟩ := two_mul_of_lt hlow
      rw [Nat.compare_eq_lt.2 hlow]
      exact ⟨rfl, by simp [ExtendedMantissa.ofMantissaAndAccuracy, hdiv],
        by simp [ExtendedMantissa.ofMantissaAndAccuracy, hrest, hzero]⟩
    · obtain ⟨hdiv, hrest⟩ := two_mul_of_le hden hhalf.ge
      rw [Nat.compare_eq_eq.2 hhalf]
      exact ⟨rfl, by simp [ExtendedMantissa.ofMantissaAndAccuracy, hdiv],
        by simp [ExtendedMantissa.ofMantissaAndAccuracy, hrest, hhalf]⟩
    · obtain ⟨hdiv, hrest⟩ := two_mul_of_le hden hhigh.le
      have hne : 2 * (num % den) - den ≠ 0 := by omega
      rw [Nat.compare_eq_gt.2 hhigh]
      exact ⟨rfl, by simp [ExtendedMantissa.ofMantissaAndAccuracy, hdiv],
        by simp [ExtendedMantissa.ofMantissaAndAccuracy, hrest, hne]⟩

/-! ### Shifting to a mantissa's length -/

theorem div_congr {a b c d : Nat} (hb : 0 < b) (hd : 0 < d) (h : a * d = c * b) : a / b = c / d := by
  rw [← Nat.mul_div_mul_left a b hd, Nat.mul_comm d a, h, Nat.mul_comm c b, Nat.mul_comm d b,
    Nat.mul_div_mul_left c d hb]

theorem targetExponent_eq (total : Int) : Format.binary64.targetExponent total = max (total - 53) (-1074) := by
  have hmin : Format.binary64.minExponent = -1074 := by decide
  have hbits : (Format.binary64.mantissaBits : Int) = 53 := by decide
  rw [Format.targetExponent, hmin, hbits]

/-- How far a mantissa is shifted, and what is left of it. -/
theorem exists_shift {m : Nat} {e : Int} (he : e ≤ Format.binary64.targetExponent (totalExponent m e)) :
    ∃ k shift : Nat, (Format.binary64.targetExponent (totalExponent m e) - e).toNat = k ∧
      e + k = shift - 1074 ∧ m / twoTo k < 2 ^ 53 ∧ (shift = 0 ∨ 2 ^ 52 ≤ m / twoTo k) := by
  rw [targetExponent_eq, totalExponent] at he ⊢
  generalize ht : max (m.log2 + 1 + e - 53) (-1074) = t at he ⊢
  obtain ⟨k, hk⟩ := Int.eq_ofNat_of_zero_le (Int.sub_nonneg_of_le he)
  obtain ⟨shift, hshift⟩ := Int.eq_ofNat_of_zero_le (show 0 ≤ t + 1074 by omega)
  refine ⟨k, shift, by omega, by omega, ?_, ?_⟩
  -- the shift is as far as it must be
  · rw [Nat.div_lt_iff_lt_mul (twoTo_pos k)]
    refine Nat.lt_of_lt_of_le Nat.lt_log2_self ?_
    show 2 ^ (m.log2 + 1) ≤ 2 ^ 53 * 2 ^ k
    rw [← Nat.pow_add]
    exact Nat.pow_le_pow_right (by decide) (by omega)
  -- and no further, unless it is the least
  · by_cases hzero : shift = 0
    · exact .inl hzero
    · right
      have hlog : m.log2 = 52 + k := by omega
      have hm : m ≠ 0 := by
        rintro rfl
        rw [Nat.log2_zero] at hlog
        omega
      rw [Nat.le_div_iff_mul_le (twoTo_pos k)]
      show 2 ^ 52 * 2 ^ k ≤ m
      rw [← Nat.pow_add, ← hlog]
      exact Nat.log2_self_le hm

/-- A mantissa that is short enough is not shifted. -/
theorem shiftToTargetExponent_of_lt {m shift : Nat} (hm : m < 2 ^ 53) :
    shiftToTargetExponent .binary64 m (shift - 1074) .exact = (.mk m false false, (shift : Int) - 1074) := by
  have hlog : m.log2 ≤ 52 := by
    rcases Nat.eq_zero_or_pos m with rfl | hpos
    · simp
    · exact Nat.le_of_lt_succ ((Nat.log2_lt hpos.ne').2 hm)
  have hnone : (Format.binary64.targetExponent (totalExponent m (shift - 1074)) - (shift - 1074)).toNat = 0 := by
    rw [targetExponent_eq, totalExponent]
    omega
  rw [shiftToTargetExponent, shiftToExponent, hnone]
  exact Prod.ext rfl (Int.add_zero _)

/-- A mantissa that was rounded up to one more bit is shifted once. -/
theorem shiftToTargetExponent_of_eq (shift : Nat) :
    shiftToTargetExponent .binary64 (2 ^ 53) (shift - 1074) .exact =
      (.mk (2 ^ 52) false false, ((shift + 1 : Nat) : Int) - 1074) := by
  have hone : (Format.binary64.targetExponent (totalExponent (2 ^ 53) (shift - 1074)) - (shift - 1074)).toNat = 1 := by
    rw [targetExponent_eq, totalExponent, Nat.log2_two_pow]
    omega
  rw [shiftToTargetExponent, shiftToExponent, hone]
  refine Prod.ext rfl ?_
  show (shift : Int) - 1074 + 1 = (shift + 1 : Nat) - 1074
  omega

/-! ### Packing -/

/-- The bits are a sign, an exponent and a fraction, and the magnitude is the one that is named. -/
def PacksTo (f : UnpackedFloat) (s : UnpackedFloat.Sign) (bits : Nat) : Prop :=
  ∃ (e : BitVec 11) (m : BitVec 52), UnpackedFloat.pack .binary64 f = packComponents .binary64 s e m ∧
    e.toNat * exponentUnit + m.toNat = bits

theorem packsTo_zero (s : UnpackedFloat.Sign) : PacksTo (.zero s) s 0 := ⟨0, 0, rfl, rfl⟩

theorem packsTo_finite (s : UnpackedFloat.Sign) {m shift : Nat} (hpos : 0 < m) (hm : m < 2 ^ 53)
    (hfull : shift = 0 ∨ 2 ^ 52 ≤ m) :
    PacksTo (.finite s m (shift - 1074) hpos) s (min infinity (shift * exponentUnit + m)) := by
  -- the place of the mantissa counts from the least exponent
  have hbiased : ((shift : Int) - 1074 + Format.binary64.exponentBias +
      Format.binary64.mantissaBitsWithoutImplicit).toNat = shift + 1 := by
    have hbias : Format.binary64.exponentBias = 1023 := by decide
    have hbits : Format.binary64.mantissaBitsWithoutImplicit = 52 := rfl
    rw [hbias, hbits]
    omega
  -- 53 bits make a normal number
  have hlog : m.log2 + 1 = Format.binary64.mantissaBits ↔ 2 ^ 52 ≤ m := by
    rw [← Nat.le_log2 hpos.ne']
    have hlt := (Nat.log2_lt hpos.ne').2 hm
    show m.log2 + 1 = 53 ↔ _
    omega
  unfold PacksTo UnpackedFloat.pack
  simp only [hbiased, hlog]
  -- too great for the format, as both sides say
  by_cases hgreat : 2 ^ 11 ≤ shift + 1 + 1
  · rw [if_pos hgreat]
    refine ⟨-1#11, 0, rfl, ?_⟩
    show 2047 * exponentUnit + 0 = _
    simp only [exponentUnit, infinity]
    omega
  · rw [if_neg hgreat]
    -- a normal number keeps the bit that is not stored in its exponent
    by_cases hnormal : 2 ^ 52 ≤ m
    · rw [if_pos hnormal]
      refine ⟨_, _, rfl, ?_⟩
      rw [BitVec.toNat_ofNat, BitVec.toNat_ofNat]
      simp only [exponentUnit, infinity]
      omega
    · rw [if_neg hnormal]
      refine ⟨_, _, rfl, ?_⟩
      show 0 * exponentUnit + m % 2 ^ 52 = _
      simp only [exponentUnit, infinity]
      omega

/-! ### Rounding a result -/

/-- The value `num / den` counted in units, and `M / D` counted in steps of `2 ^ (i - j)`, after both were shifted. -/
theorem shifted_congr {M D i j k shift : Nat} (hvalue : M * twoTo i * den = num * (D * twoTo j))
    (hshift : i + k + 1074 = shift + j) :
    M * (den * twoTo shift) = num * unitsPerOne * (D * twoTo k) := by
  refine Nat.eq_of_mul_eq_mul_right (twoTo_pos j) ?_
  have hpowers : twoTo shift * twoTo j = twoTo i * twoTo k * unitsPerOne := by
    rw [unitsPerOne, ← twoTo_add, ← twoTo_add, ← twoTo_add, hshift]
  generalize unitsPerOne = one at hpowers ⊢
  calc M * (den * twoTo shift) * twoTo j = M * den * (twoTo shift * twoTo j) := by ac_rfl
    _ = M * twoTo i * den * (twoTo k * one) := by rw [hpowers]; ac_rfl
    _ = num * (D * twoTo j) * (twoTo k * one) := by rw [hvalue]
    _ = num * one * (D * twoTo k) * twoTo j := by ac_rfl

/-- A result `M / D * 2 ^ (i - j)` that is equal to `num / den` is rounded to the nearest double. -/
theorem packsTo_round (s : UnpackedFloat.Sign) {M D i j : Nat} {e : Int} (hD : 0 < D) (hden : 0 < den)
    (he : e ≤ Format.binary64.targetExponent (totalExponent (M / D) e)) (hij : e = i - j)
    (hvalue : M * twoTo i * den = num * (D * twoTo j)) :
    PacksTo (roundWithAccuracy .binary64 s (M / D) e (accuracyOfFraction (M % D) D)) s (nearest num den) := by
  obtain ⟨k, shift, hk, hexponent, hlt, hfull⟩ := exists_shift he
  have hdescribes := (describes_fraction M hD).shiftRight hD k
  generalize hem : ExtendedMantissa.ofMantissaAndAccuracy (M / D) (accuracyOfFraction (M % D) D) >>> k = em
    at hdescribes
  have hfirst : shiftToTargetExponent .binary64 (M / D) e (accuracyOfFraction (M % D) D) =
      (em, (shift : Int) - 1074) := by
    rw [shiftToTargetExponent, shiftToExponent, hk, hem, hexponent]
  -- both fractions are the same number, so they are cut and rounded alike
  have hDk := Nat.mul_pos hD (twoTo_pos k)
  have hdens := Nat.mul_pos hden (twoTo_pos shift)
  have hsame : M * (den * twoTo shift) = num * unitsPerOne * (D * twoTo k) := shifted_congr hvalue (by omega)
  have hcut : M / D / twoTo k = num * unitsPerOne / (den * twoTo shift) := by
    rw [Nat.div_div_eq_div_mul]
    exact div_congr hDk hdens hsame
  have hround : em.roundedMantissa = roundEven (num * unitsPerOne) (den * twoTo shift) := by
    rw [hdescribes.rounded hDk]
    exact roundEven_congr hDk hdens hsame
  rw [hcut] at hlt hfull
  have hle := roundEven_le (num * unitsPerOne) (den * twoTo shift)
  have hge := div_le_roundEven (num * unitsPerOne) (den * twoTo shift)
  rw [nearest_of_shift hlt hfull, roundWithAccuracy, hfirst]
  dsimp only
  rw [hround]
  generalize roundEven (num * unitsPerOne) (den * twoTo shift) = r at hle hge
  rcases Nat.lt_or_ge r (2 ^ 53) with hshort | hlong
  · rw [shiftToTargetExponent_of_lt hshort]
    by_cases hzero : r = 0
    · subst hzero
      have hnone : shift = 0 := by omega
      simp only [dite_true, hnone]
      exact packsTo_zero s
    · simp only [hzero, dite_false]
      exact packsTo_finite s _ hshort (by omega)
  · obtain rfl : r = 2 ^ 53 := by omega
    rw [shiftToTargetExponent_of_eq]
    have hpacks := packsTo_finite s (show 0 < 2 ^ 52 by decide) (by decide)
      (.inr (Nat.le_refl _) : shift + 1 = 0 ∨ 2 ^ 52 ≤ 2 ^ 52)
    have hcarry : (shift + 1) * exponentUnit + 2 ^ 52 = shift * exponentUnit + 2 ^ 53 := by
      simp only [exponentUnit]
      omega
    rw [hcarry] at hpacks
    exact hpacks

/-! ### The parts of a double -/

variable {x y : Float}

/-- A double with a sign other than zero, infinity and NaN is a mantissa and a power of two. -/
structure Unpacks (x : Float) (mantissa i : Nat) : Prop where
  pos : 0 < mantissa
  unpack : x.toModel.unpack = .finite (modelSign (isNegative x)) mantissa (i - 1074) pos
  value : units (magnitude x) = mantissa * twoTo i
  lt : mantissa < 2 ^ 53
  full : i = 0 ∨ 2 ^ 52 ≤ mantissa

theorem toNat_implicit_append (m : BitVec 52) : (1#1 ++ m).toNat = exponentUnit + m.toNat := by
  rw [BitVec.toNat_append, ← Nat.shiftLeft_add_eq_or_of_lt m.isLt, Nat.shiftLeft_eq]
  rfl

theorem exists_unpacks (hx : isFinite x = true) (hzero : magnitude x ≠ 0) : ∃ mantissa i, Unpacks x mantissa i := by
  obtain ⟨negative, e, m, h⟩ := exists_parts x
  have hexponent := h.exponent_ne hx
  have hmagnitude := h.magnitude
  have hm : m.toNat < exponentUnit := m.isLt
  have hbias : ((Format.binary64.exponentBias : Int) + (52 : Nat)) = 1075 := by decide
  have hunpack := h.unpack
  rw [← h.isNegative] at hunpack
  simp only [UnpackedFloat.unpack, unpackExponent_packComponents, unpackMantissa_packComponents,
    unpackSign_packComponents, Sign.ofBitVec_toBitVec, if_neg hexponent, hbias] at hunpack
  -- the exponent field alone tells a subnormal number from a normal one
  by_cases he : e = 0#11
  · have hbits : magnitude x = m.toNat := by rw [hmagnitude, he, BitVec.toNat_zero, Nat.zero_mul, Nat.zero_add]
    have hpos : 0 < m.toNat := by omega
    have hm0 : m ≠ 0#52 := by
      rintro rfl
      exact absurd hpos (by decide)
    -- a subnormal number counts least units, and there is no implicit bit
    have hunits : units m.toNat = m.toNat := by simp [units, Nat.div_eq_of_lt hm, Nat.mod_eq_of_lt hm]
    rw [if_pos he, dif_neg hm0, he] at hunpack
    refine ⟨m.toNat, 0, hpos, hunpack, ?_, Nat.lt_trans m.isLt (by decide), .inl rfl⟩
    rw [hbits, hunits]
    exact (Nat.mul_one _).symm
  · have he0 : e.toNat ≠ 0 := fun h0 => he (BitVec.eq_of_toNat_eq h0)
    obtain ⟨i, hi⟩ := Nat.exists_eq_succ_of_ne_zero he0
    have hmantissa := toNat_implicit_append m
    have hpos : 0 < exponentUnit + m.toNat := Nat.add_pos_left (by decide) _
    -- of a normal number the quotient is the exponent field, and the rest the stored bits
    have hdiv : magnitude x / exponentUnit = i + 1 ∧ magnitude x % exponentUnit = m.toNat := by
      rw [hmagnitude, hi]
      simp only [exponentUnit] at hm ⊢
      omega
    rw [if_neg he] at hunpack
    refine ⟨exponentUnit + m.toNat, i, hpos, ?_, ?_, ?_, .inr (Nat.le_add_right _ _)⟩
    · rw [hunpack]
      congr 1
      omega
    · simp [units, hdiv]
    · simp only [exponentUnit] at hm ⊢
      omega

/-! ### Products and quotients -/

/-- A double whose bits are packed from a result has the sign and the magnitude of the result. -/
theorem eq_ofMagnitude_of_packsTo {f : UnpackedFloat} {negative : Bool} {bits : Nat}
    (htoBits : x.toBits.toBitVec = UnpackedFloat.pack .binary64 f) (h : PacksTo f (modelSign negative) bits) :
    x = ofMagnitude negative bits := by
  obtain ⟨e, m, hpack, hbits⟩ := h
  have hparts : Parts x negative e m := ⟨by rw [htoBits, hpack]⟩
  rw [← hbits, ← hparts.magnitude, ← hparts.isNegative, ofMagnitude_magnitude]

theorem modelSign_mul (a b : Bool) : modelSign a * modelSign b = modelSign (a != b) := by
  cases a <;> cases b <;> rfl

theorem modelSign_div (a b : Bool) : modelSign a / modelSign b = modelSign (a != b) := by
  cases a <;> cases b <;> rfl

/-- A finite double is a zero, or a mantissa and a power of two. -/
theorem zero_or_unpacks (hx : isFinite x = true) :
    magnitude x = 0 ∧ x.toModel.unpack = .zero (modelSign (isNegative x)) ∨ ∃ mantissa i, Unpacks x mantissa i := by
  obtain ⟨negative, e, m, h⟩ := exists_parts x
  rcases h.zero_or_finite hx with ⟨hzero, hunpack⟩ | ⟨hne, -⟩
  · rw [h.isNegative]
    exact .inl ⟨hzero, hunpack⟩
  · exact .inr (exists_unpacks hx hne)

@[simp] theorem units_zero : units 0 = 0 := rfl

/-- The bits of a product that is no zero. -/
theorem Unpacks.packsTo_mul {m i n j : Nat} (h : Unpacks x m i) (h' : Unpacks y n j) (s : UnpackedFloat.Sign) :
    PacksTo (roundWithAccuracy .binary64 s (m * n) (((i : Int) - 1074) + (j - 1074)) .exact) s
      (nearest (units (magnitude x) * units (magnitude y)) (unitsPerOne * unitsPerOne)) := by
  -- a full mantissa in either factor makes the product long enough; two short ones lie at the least exponent
  have hlong : 52 ≤ (m * n).log2 ∨ ((i : Int) - 1074) + (j - 1074) ≤ -1074 := by
    have hne : m * n ≠ 0 := Nat.mul_ne_zero h.pos.ne' h'.pos.ne'
    rcases h.full with rfl | hm
    · rcases h'.full with rfl | hn
      · exact .inr (by omega)
      · exact .inl ((Nat.le_log2 hne).2 (Nat.le_trans hn (Nat.le_mul_of_pos_left n h.pos)))
    · exact .inl ((Nat.le_log2 hne).2 (Nat.le_trans hm (Nat.le_mul_of_pos_right m h'.pos)))
  have htarget : ((i : Int) - 1074) + (j - 1074) ≤
      Format.binary64.targetExponent (totalExponent (m * n / 1) (((i : Int) - 1074) + (j - 1074))) := by
    rw [Nat.div_one, targetExponent_eq, totalExponent]
    omega
  -- the powers of two of both factors, collected
  have hvalue : m * n * twoTo (i + j) * (unitsPerOne * unitsPerOne) =
      units (magnitude x) * units (magnitude y) * (1 * twoTo (1074 + 1074)) := by
    rw [h.value, h'.value, twoTo_add, twoTo_add, Nat.one_mul, show twoTo 1074 = unitsPerOne from rfl]
    generalize unitsPerOne = one
    ac_rfl
  have hpacks := packsTo_round s (by decide) (Nat.mul_pos unitsPerOne_pos unitsPerOne_pos) htarget (by omega) hvalue
  rwa [Nat.div_one, Nat.mod_one] at hpacks

/-- The product of two doubles is the double nearest to the product of their values. -/
theorem mul_eq (hx : isFinite x = true) (hy : isFinite y = true) :
    x * y = ofMagnitude (isNegative x != isNegative y)
      (nearest (units (magnitude x) * units (magnitude y)) (unitsPerOne * unitsPerOne)) := by
  refine eq_ofMagnitude_of_packsTo (f := UnpackedFloat.mul .binary64 x.toModel.unpack y.toModel.unpack) rfl ?_
  rw [← modelSign_mul]
  rcases zero_or_unpacks hx with ⟨hzero, hunpack⟩ | ⟨m, i, h⟩ <;>
    rcases zero_or_unpacks hy with ⟨hzero', hunpack'⟩ | ⟨n, j, h'⟩
  · rw [hunpack, hunpack', hzero, units_zero, Nat.zero_mul, nearest_zero]
    exact packsTo_zero _
  · rw [hunpack, h'.unpack, hzero, units_zero, Nat.zero_mul, nearest_zero]
    exact packsTo_zero _
  · rw [h.unpack, hunpack', hzero', units_zero, Nat.mul_zero, nearest_zero]
    exact packsTo_zero _
  · rw [h.unpack, h'.unpack]
    exact h.packsTo_mul h' _

/-- The bits of a quotient that is no zero. The dividend is shifted until the quotient has a mantissa's length. -/
theorem Unpacks.packsTo_div {m i n j : Nat} (h : Unpacks x m i) (h' : Unpacks y n j) (s : UnpackedFloat.Sign) :
    PacksTo
      (let q := divCore .binary64 m (i - 1074) n (j - 1074); roundWithAccuracy .binary64 s q.1 q.2.1 q.2.2) s
      (nearest (units (magnitude x)) (units (magnitude y))) := by
  -- `e` is the exponent of the quotient: as small as the dividend allows, or as the format needs
  generalize htarget : min (((i : Int) - 1074) - (j - 1074)) (Format.binary64.targetExponent
    (totalExponent m (i - 1074) - totalExponent n (j - 1074))) = e
  obtain ⟨k, hk⟩ := Int.eq_ofNat_of_zero_le (show 0 ≤ ((i : Int) - 1074) - (j - 1074) - e by omega)
  have hcore : divCore .binary64 m (i - 1074) n (j - 1074) =
      (m * twoTo k / n, e, accuracyOfFraction (m * twoTo k % n) n) := by
    simp only [divCore, htarget, hk, Int.toNat_natCast, Nat.shiftLeft_eq]
    rfl
  have hlong : 52 ≤ (m * twoTo k / n).log2 ∨ e ≤ -1074 := by
    by_cases hsmall : e ≤ -1074
    · exact .inr hsmall
    · left
      rw [targetExponent_eq, totalExponent, totalExponent] at htarget
      -- the shift makes the dividend 53 bits longer than the divisor
      have hproduct : 2 ^ 52 * n ≤ m * twoTo k :=
        calc 2 ^ 52 * n ≤ 2 ^ 52 * 2 ^ (n.log2 + 1) := Nat.mul_le_mul_left _ Nat.lt_log2_self.le
          _ ≤ 2 ^ (m.log2 + k) := by
            rw [← Nat.pow_add]
            exact Nat.pow_le_pow_right (by decide) (by omega)
          _ ≤ m * twoTo k := by
            rw [Nat.pow_add]
            exact Nat.mul_le_mul_right _ (Nat.log2_self_le h.pos.ne')
      have hquotient : 2 ^ 52 ≤ m * twoTo k / n := (Nat.le_div_iff_mul_le h'.pos).2 hproduct
      have hpos : 0 < m * twoTo k / n := Nat.lt_of_lt_of_le (by decide) hquotient
      exact (Nat.le_log2 hpos.ne').2 hquotient
  have htarget' : e ≤ Format.binary64.targetExponent (totalExponent (m * twoTo k / n) e) := by
    rw [targetExponent_eq, totalExponent]
    omega
  -- the powers of two cancel up to the shift
  have hvalue : m * twoTo k * twoTo i * units (magnitude y) = units (magnitude x) * (n * twoTo (j + k)) := by
    rw [h.value, h'.value, twoTo_add]
    ac_rfl
  have hden : 0 < units (magnitude y) := by
    rw [h'.value]
    exact Nat.mul_pos h'.pos (twoTo_pos j)
  have hexponent : e = i - (j + k : Nat) := by omega
  rw [hcore]
  exact packsTo_round s h'.pos hden htarget' hexponent hvalue

/-- The quotient of two doubles is the double nearest to the quotient of their values. -/
theorem div_eq (hx : isFinite x = true) (hy : isFinite y = true) (hzero : magnitude y ≠ 0) :
    x / y = ofMagnitude (isNegative x != isNegative y) (nearest (units (magnitude x)) (units (magnitude y))) := by
  refine eq_ofMagnitude_of_packsTo (f := UnpackedFloat.div .binary64 x.toModel.unpack y.toModel.unpack) rfl ?_
  rw [← modelSign_div]
  obtain ⟨n, j, h'⟩ := exists_unpacks hy hzero
  rcases zero_or_unpacks hx with ⟨hnone, hunpack⟩ | ⟨m, i, h⟩
  · rw [hunpack, h'.unpack, hnone, units_zero, nearest_zero]
    exact packsTo_zero _
  · rw [h.unpack, h'.unpack]
    exact h.packsTo_div h' _

end FormulaBar.Binary64
