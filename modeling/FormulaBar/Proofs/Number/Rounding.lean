import FormulaBar.Proofs.Number.Bits

/-!
# FormulaBar.Proofs.Number.Rounding — rounding depends on the value and keeps doubles

`nearest` is given a fraction. It depends on the value of the fraction only (`nearest_congr`), and the value of a finite
double, which `units` counts, rounds to that double (`nearest_units`). Whatever shift leaves a mantissa's length before
the point is the one it takes (`nearest_of_shift`).
-/

namespace FormulaBar.Binary64

theorem twoTo_pos (k : Nat) : 0 < twoTo k := Nat.pow_pos (by decide)

theorem unitsPerOne_pos : 0 < unitsPerOne := twoTo_pos 1074

theorem twoTo_add (i j : Nat) : twoTo (i + j) = twoTo i * twoTo j := Nat.pow_add 2 i j

/-! ### The value of the fraction decides -/

theorem roundEven_mul_left {k : Nat} (hk : 0 < k) (num den : Nat) :
    roundEven (k * num) (k * den) = roundEven num den := by
  have hlt : 2 * (k * (num % den)) < k * den ↔ 2 * (num % den) < den := by
    rw [Nat.mul_left_comm]
    exact Nat.mul_lt_mul_left hk
  have heq : 2 * (k * (num % den)) = k * den ↔ 2 * (num % den) = den := by
    rw [Nat.mul_left_comm]
    exact Nat.mul_right_inj (Nat.ne_of_gt hk)
  simp only [roundEven, Nat.mul_div_mul_left _ _ hk, Nat.mul_mod_mul_left, hlt, heq]

theorem nearest_mul_left {k : Nat} (hk : 0 < k) (num den : Nat) : nearest (k * num) (k * den) = nearest num den := by
  simp only [nearest, Nat.mul_assoc, Nat.mul_div_mul_left _ _ hk, roundEven_mul_left hk]

theorem nearest_congr {a b c d : Nat} (hb : 0 < b) (hd : 0 < d) (h : a * d = c * b) : nearest a b = nearest c d := by
  have hcross : d * a = b * c := by rw [Nat.mul_comm d a, h, Nat.mul_comm c b]
  rw [← nearest_mul_left hd a b, hcross, Nat.mul_comm d b]
  exact nearest_mul_left hb c d

/-! ### The shift to a mantissa's length -/

/-- The shift is the one that leaves 53 bits before the point, or none if there are fewer. -/
theorem nearest_of_shift {num den shift : Nat} (hlt : num * unitsPerOne / (den * twoTo shift) < 2 ^ 53)
    (hfull : shift = 0 ∨ 2 ^ 52 ≤ num * unitsPerOne / (den * twoTo shift)) :
    nearest num den = min infinity (shift * exponentUnit + roundEven (num * unitsPerOne) (den * twoTo shift)) := by
  rw [← Nat.div_div_eq_div_mul] at hlt hfull
  -- the logarithm of the units tells the shift
  have hshift : (num * unitsPerOne / den).log2 - 52 = shift := by
    generalize num * unitsPerOne / den = units at hlt hfull
    rw [Nat.div_lt_iff_lt_mul (twoTo_pos shift)] at hlt
    rw [Nat.le_div_iff_mul_le (twoTo_pos shift)] at hfull
    have hupper : units < 2 ^ (53 + shift) := by rw [Nat.pow_add]; exact hlt
    -- zero has no logarithm, and its shift is none
    rcases Nat.eq_zero_or_pos units with rfl | hpos
    · have hsome : 0 < 2 ^ 52 * twoTo shift := Nat.mul_pos (by decide) (twoTo_pos shift)
      rcases hfull with rfl | hfull
      · rfl
      · omega
    · have hlog := (Nat.log2_lt hpos.ne').2 hupper
      rcases hfull with rfl | hfull
      · omega
      · have hlower : 2 ^ (52 + shift) ≤ units := by rw [Nat.pow_add]; exact hfull
        have hlog' := (Nat.le_log2 hpos.ne').2 hlower
        omega
  simp only [nearest, hshift]

/-! ### The value of a double rounds to the double -/

theorem roundEven_mul_self (n : Nat) {den : Nat} (hd : 0 < den) : roundEven (n * den) den = n := by
  simp [roundEven, Nat.mul_div_cancel n hd, hd]

/-- A finite double has a mantissa, full unless the double is tiny. -/
theorem exists_significand (bits : Nat) : ∃ significand shift, units bits = significand * twoTo shift ∧
    shift * exponentUnit + significand = bits ∧ significand < 2 ^ 53 ∧ (shift = 0 ∨ 2 ^ 52 ≤ significand) := by
  have hf : bits % exponentUnit < 2 ^ 52 := Nat.mod_lt _ (by decide)
  have hbits := Nat.div_add_mod bits exponentUnit
  rcases Nat.eq_zero_or_pos (bits / exponentUnit) with hzero | hpos
  · have hunits : units bits = bits % exponentUnit := by simp [units, hzero]
    rw [hzero] at hbits
    exact ⟨bits % exponentUnit, 0, by rw [hunits]; exact (Nat.mul_one _).symm, by omega, by omega, .inl rfl⟩
  · obtain ⟨shift, hshift⟩ := Nat.exists_eq_succ_of_ne_zero hpos.ne'
    have hunits : units bits = (exponentUnit + bits % exponentUnit) * twoTo shift := by simp [units, hshift]
    rw [hshift] at hbits
    simp only [exponentUnit] at *
    exact ⟨_, shift, hunits, by omega, by omega, .inr (by omega)⟩

theorem nearest_units {bits : Nat} (h : bits < infinity) : nearest (units bits) unitsPerOne = bits := by
  obtain ⟨m, shift, hunits, hbits, hlt, hfull⟩ := exists_significand bits
  have hstep := Nat.mul_pos unitsPerOne_pos (twoTo_pos shift)
  have hvalue : units bits * unitsPerOne = m * (unitsPerOne * twoTo shift) := by
    rw [hunits, Nat.mul_assoc, Nat.mul_comm unitsPerOne]
  have hquotient : units bits * unitsPerOne / (unitsPerOne * twoTo shift) = m := by
    rw [hvalue, Nat.mul_div_cancel m hstep]
  rw [← hquotient] at hlt hfull
  rw [nearest_of_shift hlt hfull, hvalue, roundEven_mul_self m hstep, hbits, Nat.min_eq_right h.le]

@[simp] theorem nearest_zero (den : Nat) : nearest 0 den = 0 := by
  have hround (d : Nat) : roundEven 0 d = 0 := by
    have hcase : 0 < d ∨ 0 = d := (Nat.eq_zero_or_pos d).elim (fun h => .inr h.symm) .inl
    simp [roundEven, hcase]
  simp [nearest, hround]

theorem nearest_le_infinity (num den : Nat) : nearest num den ≤ infinity := Nat.min_le_left _ _

end FormulaBar.Binary64
