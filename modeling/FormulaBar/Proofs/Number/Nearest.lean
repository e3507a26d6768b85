import FormulaBar.Proofs.Number.Rounding

/-!
# FormulaBar.Proofs.Number.Nearest — rounding keeps the order and takes what is close

`nearest` does not turn two fractions around (`nearest_le_nearest`), and what differs from a double by less than its
`2 ^ 54`-th part is rounded to it (`nearest_of_close`). Both are read off the shift that leaves a mantissa's length
before the point.
-/

namespace FormulaBar.Binary64

/-! ### Rounding to whole numbers -/

theorem roundEven_congr {a b c d : Nat} (hb : 0 < b) (hd : 0 < d) (h : a * d = c * b) :
    roundEven a b = roundEven c d := by
  rw [← roundEven_mul_left hd a b, Nat.mul_comm d a, h, Nat.mul_comm c b, Nat.mul_comm d b, roundEven_mul_left hb]

theorem roundEven_le (num den : Nat) : roundEven num den ≤ num / den + 1 := by
  simp only [roundEven]
  split <;> omega

theorem div_le_roundEven (num den : Nat) : num / den ≤ roundEven num den := by
  simp only [roundEven]
  split <;> omega

theorem roundEven_le_of_le {a b : Nat} (h : a ≤ b) (den : Nat) : roundEven a den ≤ roundEven b den := by
  rcases Nat.lt_or_eq_of_le (Nat.div_le_div_right (c := den) h) with hlt | heq
  · exact (roundEven_le a den).trans (Nat.le_trans hlt (div_le_roundEven b den))
  · -- the whole parts are the same, so the fractions are in order
    have ha := Nat.div_add_mod a den
    have hb := Nat.div_add_mod b den
    rw [heq] at ha
    have hmod : a % den ≤ b % den := by omega
    simp only [roundEven, heq]
    split <;> split <;> omega

theorem roundEven_le_roundEven {a b c d : Nat} (hb : 0 < b) (hd : 0 < d) (h : a * d ≤ c * b) :
    roundEven a b ≤ roundEven c d :=
  calc roundEven a b = roundEven (a * d) (b * d) := by rw [Nat.mul_comm a, Nat.mul_comm b, roundEven_mul_left hd]
    _ ≤ roundEven (c * b) (b * d) := roundEven_le_of_le h _
    _ = roundEven c d := by rw [Nat.mul_comm c, roundEven_mul_left hb]

/-- What is less than a half away is rounded to it. -/
theorem roundEven_of_close {n num den : Nat} (habove : 2 * num < 2 * (n * den) + den)
    (hbelow : 2 * (n * den) < 2 * num + den) : roundEven num den = n := by
  have hden : 0 < den := by omega
  rcases Nat.lt_or_ge num (n * den) with hlt | hge
  · obtain ⟨k, rfl⟩ : ∃ k, n = k + 1 := by
      refine Nat.exists_eq_succ_of_ne_zero ?_
      rintro rfl
      omega
    have hsucc : (k + 1) * den = k * den + den := Nat.succ_mul k den
    obtain ⟨hdiv, hmod⟩ := (Nat.div_mod_unique (a := num) (b := den) (c := num - k * den) (d := k) hden).2
      ⟨by rw [Nat.mul_comm den]; omega, by omega⟩
    exact (if_neg (by omega)).trans (by rw [hdiv])
  · obtain ⟨hdiv, hmod⟩ := (Nat.div_mod_unique (a := num) (b := den) (c := num - n * den) (d := n) hden).2
      ⟨by rw [Nat.mul_comm den]; omega, by omega⟩
    exact (if_pos (.inl (by omega))).trans hdiv

/-! ### Order -/

/-- There is a shift to a mantissa's length. -/
theorem exists_nearest_shift (num den : Nat) : ∃ shift, num * unitsPerOne / (den * twoTo shift) < 2 ^ 53 ∧
    (shift = 0 ∨ 2 ^ 52 ≤ num * unitsPerOne / (den * twoTo shift)) := by
  refine ⟨(num * unitsPerOne / den).log2 - 52, ?_, ?_⟩ <;> rw [← Nat.div_div_eq_div_mul] <;>
    generalize num * unitsPerOne / den = units
  · rw [Nat.div_lt_iff_lt_mul (twoTo_pos _)]
    show units < 2 ^ 53 * 2 ^ (units.log2 - 52)
    rw [← Nat.pow_add]
    exact Nat.lt_log2_self.trans_le (Nat.pow_le_pow_right (by decide) (by omega))
  · rw [Nat.le_div_iff_mul_le (twoTo_pos _)]
    by_cases hshort : units.log2 ≤ 52
    · exact .inl (Nat.sub_eq_zero_of_le hshort)
    · right
      have hne : units ≠ 0 := by
        rintro rfl
        exact hshort (by simp)
      show 2 ^ 52 * 2 ^ (units.log2 - 52) ≤ units
      rw [← Nat.pow_add, show 52 + (units.log2 - 52) = units.log2 by omega]
      exact Nat.log2_self_le hne

/-- Rounding keeps the order. -/
theorem nearest_le_nearest {a b c d : Nat} (hb : 0 < b) (hd : 0 < d) (h : a * d ≤ c * b) :
    nearest a b ≤ nearest c d := by
  obtain ⟨s, hlt, hfull⟩ := exists_nearest_shift a b
  obtain ⟨t, hlt', hfull'⟩ := exists_nearest_shift c d
  have hbs := Nat.mul_pos hb (twoTo_pos s)
  have hdt := Nat.mul_pos hd (twoTo_pos t)
  have hscaled : a * unitsPerOne * d ≤ c * unitsPerOne * b := by
    rw [Nat.mul_right_comm a, Nat.mul_right_comm c]
    exact Nat.mul_le_mul_right _ h
  rw [nearest_of_shift hlt hfull, nearest_of_shift hlt' hfull']
  have hround := div_le_roundEven (c * unitsPerOne) (d * twoTo t)
  have hround' := roundEven_le (a * unitsPerOne) (b * twoTo s)
  refine min_le_min_left _ ?_
  generalize a * unitsPerOne = A at *
  generalize c * unitsPerOne = C at *
  rcases Nat.lt_trichotomy s t with hst | rfl | hts
  · -- the greater fraction has a greater exponent
    have hone : (s + 1) * exponentUnit ≤ t * exponentUnit := Nat.mul_le_mul_right _ hst
    simp only [exponentUnit] at hone ⊢
    omega
  · refine Nat.add_le_add_left (roundEven_le_roundEven hbs hdt ?_) _
    rw [← Nat.mul_assoc, ← Nat.mul_assoc]
    exact Nat.mul_le_mul_right _ hscaled
  · -- the smaller fraction cannot have it
    exfalso
    rw [Nat.div_lt_iff_lt_mul hdt] at hlt'
    have hlow : 2 ^ 52 * (b * twoTo s) ≤ A := (Nat.le_div_iff_mul_le hbs).1 (hfull.resolve_left (by omega))
    have hpowers : 2 * twoTo t ≤ twoTo s := by
      rw [show s = t + 1 + (s - (t + 1)) by omega, twoTo_add, twoTo_add, Nat.mul_comm 2]
      exact Nat.le_mul_of_pos_right _ (twoTo_pos _)
    have hcontra : C * b < C * b :=
      calc C * b < 2 ^ 53 * (d * twoTo t) * b := Nat.mul_lt_mul_of_pos_right hlt' hb
        _ = 2 ^ 52 * (b * (2 * twoTo t)) * d := by ring
        _ ≤ 2 ^ 52 * (b * twoTo s) * d := by gcongr
        _ ≤ A * d := Nat.mul_le_mul_right _ hlow
        _ ≤ C * b := hscaled
    exact Nat.lt_irrefl _ hcontra

theorem nearest_one_le_of_le {m n : Nat} (h : m ≤ n) : nearest m 1 ≤ nearest n 1 :=
  nearest_le_nearest (by decide) (by decide) (Nat.mul_le_mul_right 1 h)

/-! ### What is close to a double -/

/-- What is less than half a step away from a mantissa is rounded to it, also where the steps below are half as long. -/
theorem exists_shift_of_close {m s value den : Nat} (hlt : m < 2 ^ 53) (hfull : s = 0 ∨ 2 ^ 52 ≤ m)
    (habove : 2 ^ 54 * value < (2 ^ 54 + 1) * (m * (den * twoTo s)))
    (hbelow : (2 ^ 54 - 1) * (m * (den * twoTo s)) < 2 ^ 54 * value) :
    ∃ shift, value / (den * twoTo shift) < 2 ^ 53 ∧ (shift = 0 ∨ 2 ^ 52 ≤ value / (den * twoTo shift)) ∧
      shift * exponentUnit + roundEven value (den * twoTo shift) = s * exponentUnit + m := by
  have hproduct : m * (den * twoTo s) ≤ (2 ^ 53 - 1) * (den * twoTo s) := Nat.mul_le_mul_right _ (by omega)
  have hstep : 0 < den * twoTo s := by omega
  have hup : 2 * value < 2 * (m * (den * twoTo s)) + den * twoTo s := by omega
  have hdown : 2 * (m * (den * twoTo s)) < 2 * value + den * twoTo s := by omega
  by_cases hsame : s = 0 ∨ 2 ^ 52 * (den * twoTo s) ≤ value
  · refine ⟨s, ?_, hsame.imp_right (Nat.le_div_iff_mul_le hstep).2, ?_⟩
    · rw [Nat.div_lt_iff_lt_mul hstep]
      omega
    · rw [roundEven_of_close hup hdown]
  · -- the mantissa is a power of two, and the value lies below it
    obtain ⟨hs, hshort⟩ := not_or.1 hsame
    obtain ⟨t, rfl⟩ : ∃ t, s = t + 1 := Nat.exists_eq_succ_of_ne_zero hs
    have hdouble : den * twoTo (t + 1) = 2 * (den * twoTo t) := by
      rw [twoTo_add, show twoTo 1 = 2 from rfl, Nat.mul_comm (twoTo t), Nat.mul_left_comm]
    rw [hdouble] at hshort habove hbelow hup hdown
    generalize hhalf : den * twoTo t = half at *
    have hm : m = 2 ^ 52 := by
      refine Nat.le_antisymm (Nat.le_of_not_lt fun hgt => ?_) (hfull.resolve_left hs)
      have hnext : (2 ^ 52 + 1) * (2 * half) ≤ m * (2 * half) := Nat.mul_le_mul_right _ hgt
      omega
    subst hm
    have hquotient : value / half < 2 ^ 53 := by
      rw [Nat.div_lt_iff_lt_mul (by omega)]
      omega
    have hfull' : 2 ^ 52 ≤ value / half := by
      rw [Nat.le_div_iff_mul_le (by omega)]
      omega
    have hround : roundEven value half = 2 ^ 53 := roundEven_of_close (by omega) (by omega)
    refine ⟨t, by rwa [hhalf], .inr (by rwa [hhalf]), ?_⟩
    rw [hhalf, hround]
    simp only [exponentUnit]
    omega

/-- What differs from a double by less than its `2 ^ 54`-th part is rounded to it. -/
theorem nearest_of_close {bits num den : Nat} (h : bits < infinity)
    (habove : 2 ^ 54 * (num * unitsPerOne) < (2 ^ 54 + 1) * (units bits * den))
    (hbelow : (2 ^ 54 - 1) * (units bits * den) < 2 ^ 54 * (num * unitsPerOne)) : nearest num den = bits := by
  obtain ⟨m, s, hunits, hbits, hlt, hfull⟩ := exists_significand bits
  rw [hunits, Nat.mul_assoc, Nat.mul_comm (twoTo s)] at habove hbelow
  obtain ⟨shift, hquotient, hfull', hround⟩ := exists_shift_of_close hlt hfull habove hbelow
  rw [nearest_of_shift hquotient hfull', hround, hbits, Nat.min_eq_right h.le]

theorem units_le_units {a b : Nat} (h : a ≤ b) (hb : b < infinity) : units a ≤ units b := by
  by_contra hlt
  have hle := nearest_le_nearest unitsPerOne_pos unitsPerOne_pos
    (Nat.mul_le_mul_right unitsPerOne (Nat.le_of_not_le hlt))
  rw [nearest_units hb, nearest_units (h.trans_lt hb)] at hle
  obtain rfl := Nat.le_antisymm h hle
  exact hlt (Nat.le_refl _)

/-! ### Whole numbers that are doubles -/

theorem nearest_one_of_units {bits n : Nat} (h : bits < infinity) (hunits : units bits = n * unitsPerOne) :
    nearest n 1 = bits := by
  rw [← nearest_units h, hunits]
  exact nearest_congr (by decide) unitsPerOne_pos (by rw [Nat.mul_one])

/-- The whole number is a double. -/
def IsWhole (n : Nat) : Prop := nearest n 1 < infinity ∧ units (nearest n 1) = n * unitsPerOne

instance : DecidablePred IsWhole := fun _ => inferInstanceAs (Decidable (_ ∧ _))

/-- The value of a double with a full mantissa. -/
theorem units_of_significand {m shift : Nat} (hlow : 2 ^ 52 ≤ m) (hhigh : m < 2 ^ 53) :
    units (shift * exponentUnit + m) = m * twoTo shift := by
  have hm : exponentUnit + (m - exponentUnit) = m := Nat.add_sub_cancel' hlow
  obtain ⟨hdiv, hmod⟩ := (Nat.div_mod_unique (a := shift * exponentUnit + m) (b := exponentUnit)
    (c := m - exponentUnit) (d := shift + 1) (by decide)).2
    ⟨by simp only [exponentUnit] at *; omega, by simp only [exponentUnit] at *; omega⟩
  simp only [units, hdiv, hmod, Nat.succ_ne_zero, if_false, hm, Nat.add_sub_cancel]

/-- Whole numbers below `2 ^ 53` are doubles, and so are their multiples by powers of two up to the greatest. -/
theorem isWhole_mul_twoTo {n i : Nat} (h : n < 2 ^ 53) (hi : i ≤ 971) : IsWhole (n * twoTo i) := by
  rcases Nat.eq_zero_or_pos n with rfl | hpos
  · rw [IsWhole, Nat.zero_mul, nearest_zero, Nat.zero_mul]
    exact ⟨by decide, rfl⟩
  · -- the mantissa is `n` shifted to its full length
    obtain ⟨k, hk⟩ : ∃ k, n.log2 + k = 52 := ⟨52 - n.log2, by have := (Nat.log2_lt hpos.ne').2 h; omega⟩
    have hlow : 2 ^ 52 ≤ n * twoTo k := by
      rw [← hk, Nat.pow_add]
      exact Nat.mul_le_mul_right _ (Nat.log2_self_le hpos.ne')
    have hhigh : n * twoTo k < 2 ^ 53 := by
      rw [show 53 = n.log2 + 1 + k by omega, Nat.pow_add]
      exact Nat.mul_lt_mul_of_pos_right Nat.lt_log2_self (twoTo_pos k)
    obtain ⟨shift, hshift⟩ : ∃ shift, k + shift = i + 1074 := ⟨i + 1074 - k, by omega⟩
    have hfinite : shift * exponentUnit + n * twoTo k < infinity := by
      simp only [exponentUnit, infinity] at hhigh ⊢
      omega
    have hunits : units (shift * exponentUnit + n * twoTo k) = n * twoTo i * unitsPerOne := by
      rw [units_of_significand hlow hhigh, Nat.mul_assoc, ← twoTo_add, hshift, twoTo_add, ← Nat.mul_assoc, unitsPerOne]
    rw [IsWhole, nearest_one_of_units hfinite hunits]
    exact ⟨hfinite, hunits⟩

end FormulaBar.Binary64
