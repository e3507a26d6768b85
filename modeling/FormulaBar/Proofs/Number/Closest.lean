import FormulaBar.Proofs.Number.Nearest
import FormulaBar.Decimal.Basic

/-!
# FormulaBar.Proofs.Number.Closest — rounding takes the closest double

`nearest` gives the magnitude whose value is closest to a fraction, and of two that are as close the one with even last
bit (`closest_nearest`); there is only one such (`Closest.unique`). Infinity takes part with the value `2 ^ 1024`, so that
what is too large rounds to it. Hence a decimal becomes the double that it rounds to (`toFloat_eq_iff`).
-/

namespace FormulaBar

namespace Binary64

/-! ### Magnitudes in order -/

variable {bits m s : Nat}

theorem twoTo_le_twoTo {i j : Nat} (h : i ≤ j) : twoTo i ≤ twoTo j := Nat.pow_le_pow_right (by decide) h

/-- A greater magnitude is at least one step greater. -/
theorem le_units_of_lt (hm : m ≤ 2 ^ 53) (hfull : s = 0 ∨ 2 ^ 52 ≤ m) (h : s * exponentUnit + m < bits) :
    (m + 1) * twoTo s ≤ units bits := by
  obtain ⟨n, t, hunits, hbits, hlt, hlong⟩ := exists_significand bits
  simp only [exponentUnit] at h hbits
  rw [hunits]
  rcases Nat.lt_trichotomy s t with hst | rfl | hts
  · -- the exponent is greater, and so is the mantissa with a bit more
    have hn : 2 ^ 52 ≤ n := hlong.resolve_left (by omega)
    obtain ⟨k, rfl⟩ : ∃ k, t = s + 1 + k := ⟨t - (s + 1), by omega⟩
    have hmantissa : m + 1 ≤ n * twoTo (1 + k) := by
      cases k with
      | zero =>
        show m + 1 ≤ n * 2
        omega
      | succ k =>
        have hfour : n * 4 ≤ n * twoTo (1 + (k + 1)) := by
          refine Nat.mul_le_mul_left n ?_
          rw [show 1 + (k + 1) = 2 + k by omega, twoTo_add]
          exact Nat.le_mul_of_pos_right 4 (twoTo_pos k)
        omega
    calc (m + 1) * twoTo s ≤ n * twoTo (1 + k) * twoTo s := Nat.mul_le_mul_right _ hmantissa
      _ = n * twoTo (s + 1 + k) := by rw [Nat.mul_assoc, ← twoTo_add, show 1 + k + s = s + 1 + k by omega]
  · exact Nat.mul_le_mul_right _ (by omega)
  · exfalso
    have hm : 2 ^ 52 ≤ m := hfull.resolve_left (by omega)
    have hexponent : (t + 1) * 2 ^ 52 ≤ s * 2 ^ 52 := Nat.mul_le_mul_right _ hts
    omega

/-- A smaller magnitude is smaller, by at least one step unless the mantissa is the least. -/
theorem units_lt_of_lt (hm : m ≤ 2 ^ 53) (hfull : s = 0 ∨ 2 ^ 52 ≤ m) (h : bits < s * exponentUnit + m) :
    units bits < m * twoTo s ∧ (s = 0 ∨ 2 ^ 52 < m → units bits + twoTo s ≤ m * twoTo s) := by
  obtain ⟨n, t, hunits, hbits, hlt, hlong⟩ := exists_significand bits
  simp only [exponentUnit] at h hbits
  have hpos := twoTo_pos s
  rw [hunits]
  rcases Nat.lt_trichotomy s t with hst | rfl | hts
  · exfalso
    have hn : 2 ^ 52 ≤ n := hlong.resolve_left (by omega)
    have hexponent : (s + 1) * 2 ^ 52 ≤ t * 2 ^ 52 := Nat.mul_le_mul_right _ hst
    omega
  · have hstep : (n + 1) * twoTo s ≤ m * twoTo s := Nat.mul_le_mul_right _ (by omega)
    rw [Nat.succ_mul] at hstep
    exact ⟨by omega, fun _ => hstep⟩
  · -- the exponent is smaller, and the mantissa at most twice as long
    have hm : 2 ^ 52 ≤ m := hfull.resolve_left (by omega)
    obtain ⟨k, rfl⟩ : ∃ k, s = t + 1 + k := ⟨s - (t + 1), by omega⟩
    have hhalf : 2 * twoTo t ≤ twoTo (t + 1 + k) := by
      rw [Nat.mul_comm, show t + 1 + k = t + (1 + k) by omega, twoTo_add]
      refine Nat.mul_le_mul_left _ ?_
      rw [twoTo_add]
      exact Nat.le_mul_of_pos_right 2 (twoTo_pos k)
    have hsmall : n * twoTo t ≤ (2 ^ 53 - 1) * twoTo t := Nat.mul_le_mul_right _ (by omega)
    have hmantissa : 2 ^ 52 * twoTo (t + 1 + k) ≤ m * twoTo (t + 1 + k) := Nat.mul_le_mul_right _ hm
    have hnext : 2 ^ 52 < m → (2 ^ 52 + 1) * twoTo (t + 1 + k) ≤ m * twoTo (t + 1 + k) := Nat.mul_le_mul_right _
    have htpos := twoTo_pos t
    generalize twoTo (t + 1 + k) = step at *
    generalize m * step = top at *
    generalize n * twoTo t = low at *
    refine ⟨by omega, fun hor => ?_⟩
    have hgreat := hnext (hor.resolve_left (by omega))
    omega

theorem units_lt_units {a b : Nat} (h : a < b) : units a < units b := by
  obtain ⟨m, s, hunits, hbits, hlt, hfull⟩ := exists_significand b
  rw [hunits]
  rw [← hbits] at h
  exact (units_lt_of_lt hlt.le hfull h).1

/-- The value of a magnitude that is given by a mantissa, which may have been rounded up to its double. -/
theorem units_of_mantissa (hm : m ≤ 2 ^ 53) (hfull : s = 0 ∨ 2 ^ 52 ≤ m) :
    units (s * exponentUnit + m) = m * twoTo s := by
  rcases Nat.lt_or_eq_of_le hm with hlt | rfl
  · rcases Nat.lt_or_ge m (2 ^ 52) with hshort | hlong
    · obtain rfl := hfull.resolve_right (by omega)
      have hzero : (0 * exponentUnit + m) / exponentUnit = 0 := by simp only [exponentUnit]; omega
      have hself : (0 * exponentUnit + m) % exponentUnit = m := by simp only [exponentUnit]; omega
      rw [units, hzero, hself]
      exact (Nat.mul_one m).symm
    · exact units_of_significand hlong hlt
  · rw [show s * exponentUnit + 2 ^ 53 = (s + 1) * exponentUnit + 2 ^ 52 by simp only [exponentUnit]; omega,
      units_of_significand (Nat.le_refl _) (by decide), twoTo_add, Nat.mul_comm (twoTo s), ← Nat.mul_assoc]
    rfl

/-! ### Rounding to whole numbers -/

/-- A fraction is rounded by half a step at most, and then to an even number. -/
theorem roundEven_within_half {den : Nat} (hden : 0 < den) (num : Nat) :
    2 * num ≤ 2 * (roundEven num den * den) + den ∧ 2 * (roundEven num den * den) ≤ 2 * num + den ∧
      (2 * num = 2 * (roundEven num den * den) + den ∨ 2 * (roundEven num den * den) = 2 * num + den →
        roundEven num den % 2 = 0) := by
  have hsplit := Nat.div_add_mod' num den
  have hrest := Nat.mod_lt num hden
  simp only [roundEven]
  split
  · next hdown => exact ⟨by omega, by omega, by omega⟩
  · next hup =>
    have hnext : (num / den + 1) * den = num / den * den + den := Nat.succ_mul _ _
    exact ⟨by omega, by omega, by omega⟩

/-! ### The closest double -/

/-- The number that a magnitude stands for; infinity stands for `2 ^ 1024` here. -/
def value (bits : Nat) : ℚ := units bits / unitsPerOne

/-- No magnitude has a value closer to `q`, and another as close only if the last bit is zero. -/
structure Closest (q : ℚ) (bits : Nat) : Prop where
  le_infinity : bits ≤ infinity
  closest : ∀ other ≤ infinity, |q - value bits| ≤ |q - value other|
  even_of_tie : ∀ other ≤ infinity, other ≠ bits → |q - value other| = |q - value bits| → bits % 2 = 0

/-- The distance between a fraction and a value, over their common denominator. -/
theorem abs_sub_value {den : Nat} (hden : 0 < den) (num bits : Nat) :
    |(num / den : ℚ) - value bits| = (Nat.dist (num * unitsPerOne) (units bits * den) : ℚ) / (den * unitsPerOne) := by
  have hd : (0 : ℚ) < den := Nat.cast_pos.2 hden
  have hu : (0 : ℚ) < unitsPerOne := Nat.cast_pos.2 unitsPerOne_pos
  have hdist (a b : Nat) : |(a : ℚ) - b| = (Nat.dist a b : ℚ) := by
    rcases Nat.le_total a b with h | h
    · rw [Nat.dist_eq_sub_of_le h, Nat.cast_sub h, abs_sub_comm, abs_of_nonneg (sub_nonneg.2 (Nat.cast_le.2 h))]
    · rw [Nat.dist_eq_sub_of_le_right h, Nat.cast_sub h, abs_of_nonneg (sub_nonneg.2 (Nat.cast_le.2 h))]
  rw [value, div_sub_div _ _ hd.ne' hu.ne', abs_div, abs_of_pos (mul_pos hd hu), ← hdist]
  push_cast
  rw [mul_comm (den : ℚ) (units bits : ℚ)]

/-- What is rounded to a mantissa is no closer to the value of another magnitude. -/
theorem dist_mantissa_le {den scaled other : Nat} (hden : 0 < den) (hm : m ≤ 2 ^ 53) (hfull : s = 0 ∨ 2 ^ 52 ≤ m)
    (hlow : s ≠ 0 → 2 ^ 52 * (den * twoTo s) ≤ scaled) (hround : roundEven scaled (den * twoTo s) = m)
    (hne : other ≠ s * exponentUnit + m) :
    Nat.dist scaled (m * (den * twoTo s)) ≤ Nat.dist scaled (units other * den) ∧
      (Nat.dist scaled (units other * den) = Nat.dist scaled (m * (den * twoTo s)) → m % 2 = 0) := by
  obtain ⟨habove, hbelow, htie⟩ := roundEven_within_half (Nat.mul_pos hden (twoTo_pos s)) scaled
  rw [hround] at habove hbelow htie
  have hscale (n : Nat) : n * twoTo s * den = n * (den * twoTo s) := by ac_rfl
  rcases Nat.lt_or_gt_of_ne hne with hless | hgreater
  · obtain ⟨hbelow', hstep⟩ := units_lt_of_lt hm hfull hless
    have hbelow' := Nat.mul_lt_mul_of_pos_right hbelow' hden
    rw [hscale] at hbelow'
    by_cases hnormal : s = 0 ∨ 2 ^ 52 < m
    · have hstep := Nat.mul_le_mul_right den (hstep hnormal)
      rw [Nat.add_mul, hscale, Nat.mul_comm (twoTo s)] at hstep
      generalize den * twoTo s = step at *
      generalize m * step = taken at *
      generalize units other * den = far at *
      simp only [Nat.dist]
      exact ⟨by omega, fun heq => htie (by omega)⟩
    · -- the steps below are half as long, but the value lies above
      have hleast : m = 2 ^ 52 := by omega
      have habove' := hlow (by omega)
      rw [← hleast] at habove'
      generalize m * (den * twoTo s) = taken at *
      generalize units other * den = far at *
      simp only [Nat.dist]
      omega
  · have hstep := Nat.mul_le_mul_right den (le_units_of_lt hm hfull hgreater)
    rw [hscale, Nat.succ_mul] at hstep
    generalize den * twoTo s = step at *
    generalize m * step = taken at *
    generalize units other * den = far at *
    simp only [Nat.dist]
    exact ⟨by omega, fun heq => htie (by omega)⟩

/-- In units of the common denominator, no magnitude is closer than the one that is rounded to. -/
theorem dist_nearest_le {den : Nat} (hden : 0 < den) (num : Nat) {other : Nat} (hother : other ≤ infinity)
    (hne : other ≠ nearest num den) :
    let near := Nat.dist (num * unitsPerOne) (units (nearest num den) * den)
    let far := Nat.dist (num * unitsPerOne) (units other * den)
    near ≤ far ∧ (far = near → nearest num den % 2 = 0) := by
  obtain ⟨s, hlt, hfull⟩ := exists_nearest_shift num den
  have hle := roundEven_le (num * unitsPerOne) (den * twoTo s)
  have hge := div_le_roundEven (num * unitsPerOne) (den * twoTo s)
  have hlow : s ≠ 0 → 2 ^ 52 * (den * twoTo s) ≤ num * unitsPerOne := fun hs =>
    (Nat.le_div_iff_mul_le (Nat.mul_pos hden (twoTo_pos s))).1 (hfull.resolve_left hs)
  rw [nearest_of_shift hlt hfull] at hne ⊢
  generalize hround : roundEven (num * unitsPerOne) (den * twoTo s) = m at *
  have hm : m ≤ 2 ^ 53 := by omega
  have hlong : s = 0 ∨ 2 ^ 52 ≤ m := hfull.imp_right (Nat.le_trans · hge)
  rcases Nat.lt_or_ge infinity (s * exponentUnit + m) with hinfinite | hfinite
  · -- the value is not less than infinity's, and every other magnitude's is
    rw [Nat.min_eq_left hinfinite.le] at hne ⊢
    have hs : 2046 ≤ s := by simp only [infinity, exponentUnit] at hinfinite; omega
    have hinfinity : infinity = 2046 * exponentUnit + 2 ^ 52 := rfl
    have hunits := units_of_mantissa (m := 2 ^ 52) (s := 2046) (by decide) (.inr (Nat.le_refl _))
    have hless := units_lt_units (Nat.lt_of_le_of_ne hother hne)
    rw [← hinfinity] at hunits
    have hvalue : units infinity * den ≤ num * unitsPerOne := by
      refine Nat.le_trans ?_ (hlow (by omega))
      rw [hunits, Nat.mul_assoc, Nat.mul_comm (twoTo 2046)]
      exact Nat.mul_le_mul_left _ (Nat.mul_le_mul_left _ (twoTo_le_twoTo hs))
    have hless := Nat.mul_lt_mul_of_pos_right hless hden
    simp only [Nat.dist]
    omega
  · rw [Nat.min_eq_right hfinite] at hne ⊢
    have hparity : (s * exponentUnit + m) % 2 = m % 2 := by simp only [exponentUnit]; omega
    rw [units_of_mantissa hm hlong, hparity, Nat.mul_assoc, Nat.mul_comm (twoTo s)]
    exact dist_mantissa_le hden hm hlong hlow hround hne

theorem closest_nearest {den : Nat} (hden : 0 < den) (num : Nat) : Closest (num / den) (nearest num den) := by
  have hscale : (0 : ℚ) < den * unitsPerOne := mul_pos (Nat.cast_pos.2 hden) (Nat.cast_pos.2 unitsPerOne_pos)
  refine ⟨nearest_le_infinity num den, fun other hother => ?_, fun other hother hne htie => ?_⟩
  · rcases eq_or_ne other (nearest num den) with rfl | hne
    · exact le_rfl
    · rw [abs_sub_value hden, abs_sub_value hden]
      exact div_le_div_of_nonneg_right (Nat.cast_le.2 (dist_nearest_le hden num hother hne).1) hscale.le
  · rw [abs_sub_value hden, abs_sub_value hden, div_left_inj' hscale.ne'] at htie
    exact (dist_nearest_le hden num hother hne).2 (Nat.cast_injective htie)

theorem value_lt_value {a b : Nat} (h : a < b) : value a < value b :=
  div_lt_div_of_pos_right (Nat.cast_lt.2 (units_lt_units h)) (Nat.cast_pos.2 unitsPerOne_pos)

/-- Only one double is rounded to. -/
theorem Closest.unique {q : ℚ} {a b : Nat} (ha : Closest q a) (hb : Closest q b) : a = b := by
  have hless {a b : Nat} (ha : Closest q a) (hb : Closest q b) (hlt : a < b) : False := by
    have hsame := le_antisymm (ha.closest b hb.le_infinity) (hb.closest a ha.le_infinity)
    have heven := ha.even_of_tie b hb.le_infinity hlt.ne' hsame.symm
    have heven' := hb.even_of_tie a ha.le_infinity hlt.ne hsame
    -- both are even, so there is one between them, and it is closer
    have hlow : value a < value (a + 1) := value_lt_value (Nat.lt_succ_self a)
    have hhigh : value (a + 1) < value b := value_lt_value (by omega)
    have hle := hb.le_infinity
    have hcloser := ha.closest (a + 1) (by omega)
    have hmiddle : q - value a = value b - q := by
      rcases abs_eq_abs.1 hsame with h | h <;> linarith
    have hbetween : |q - value (a + 1)| < |q - value a| := by
      rw [abs_of_pos (show 0 < q - value a by linarith), abs_lt]
      exact ⟨by linarith, by linarith⟩
    exact absurd hcloser (not_le_of_gt hbetween)
  rcases Nat.lt_trichotomy a b with h | h | h
  · exact (hless ha hb h).elim
  · exact h
  · exact (hless hb ha h).elim

end Binary64

namespace Decimal

open Binary64

/-- The number that a decimal denotes, without its sign. -/
def size (d : Decimal) : ℚ := d.coefficient * 10 ^ d.exponent

/-- The double is the one that the decimal rounds to; infinity if it is too large. -/
structure RoundsTo (d : Decimal) (x : Float) : Prop where
  sign : isNegative x = d.negative
  closest : Closest d.size (Binary64.magnitude x)

theorem size_eq_div (d : Decimal) :
    d.size = ((d.coefficient * tenTo d.exponent.toNat : Nat) : ℚ) / (tenTo (-d.exponent).toNat : Nat) := by
  have hcast (k : Nat) : (tenTo k : ℚ) = 10 ^ k := Nat.cast_pow 10 k
  rw [size, Nat.cast_mul, hcast, hcast]
  cases d.exponent with
  | ofNat k => simp
  | negSucc k => simp [zpow_negSucc, div_eq_mul_inv]

theorem closest_magnitude (d : Decimal) : Closest d.size d.magnitude := by
  rw [size_eq_div]
  exact closest_nearest (tenTo_pos _) _

theorem toFloat_eq_iff {d : Decimal} {x : Float} : d.toFloat = x ↔ d.RoundsTo x := by
  have hle : d.magnitude ≤ infinity := nearest_le_infinity _ _
  constructor
  · rintro rfl
    refine ⟨isNegative_ofMagnitude hle, ?_⟩
    rw [toFloat, magnitude_ofMagnitude hle]
    exact closest_magnitude d
  · rintro ⟨hsign, hclosest⟩
    rw [toFloat, (closest_magnitude d).unique hclosest, ← hsign, ofMagnitude_magnitude]

end Decimal

end FormulaBar
