import FormulaBar.Proofs.Number.Nearest
import FormulaBar.Proofs.Number.RoundTrip

/-!
# FormulaBar.Proofs.Number.Shortest — seventeen digits are enough

Of the two neighbours of a double on the grid of seventeen digits, one is so close that it reads back
(`shortestWith_seventeen_ne_none`). So the search for the fewest digits ends by then, and what is shown of a double has
at most seventeen (`shortest_le`).
-/

namespace FormulaBar.Decimal

open Binary64

theorem tenTo_add (i j : Nat) : tenTo (i + j) = tenTo i * tenTo j := Nat.pow_add 10 i j

theorem tenTo_le_tenTo {i j : Nat} (h : i ≤ j) : tenTo i ≤ tenTo j := Nat.pow_le_pow_right (by decide) h

theorem lt_of_tenTo_lt {i j : Nat} (h : tenTo i < tenTo j) : i < j := (Nat.pow_lt_pow_iff_right (by decide)).1 h

theorem units_pos {bits : Nat} (h : bits ≠ 0) : 0 < units bits := by
  obtain ⟨m, s, hunits, hbits, -, hfull⟩ := exists_significand bits
  rw [hunits]
  refine Nat.mul_pos (Nat.pos_of_ne_zero ?_) (twoTo_pos s)
  rintro rfl
  rcases hfull with rfl | hfull <;> omega

variable {tie : Tie} {bits : Nat}

/-! ### The grids -/

/-- A value lies between `low` and `low + 1` steps, and to count them takes this many digits. -/
structure OnGrid (value step digits low rest : Nat) : Prop where
  split : value = low * step + rest
  rest_lt : rest < step
  upper : low < tenTo digits
  lower : step * tenTo (digits - 1) ≤ value

/-- The number of steps is as long as the whole part less the digits that a step has. -/
theorem onGrid_div {value one digits k : Nat} (hone : 0 < one) (hvalue : one ≤ value) (hpos : 0 < digits)
    (hcount : digitCount (value / one) = digits + k) :
    OnGrid value (one * tenTo k) digits (value / (one * tenTo k)) (value % (one * tenTo k)) := by
  have hstep := Nat.mul_pos hone (tenTo_pos k)
  have hupper := lt_tenTo_digitCount (value / one)
  have hlower := tenTo_le_of_digitCount (Nat.div_pos hvalue hone).ne'
  rw [hcount, tenTo_add, Nat.div_lt_iff_lt_mul hone] at hupper
  rw [hcount, show digits + k - 1 = k + (digits - 1) by omega, tenTo_add, Nat.le_div_iff_mul_le hone] at hlower
  refine ⟨(Nat.div_add_mod' value _).symm, Nat.mod_lt _ hstep, ?_, ?_⟩
  · rw [Nat.div_lt_iff_lt_mul hstep]
    calc value < tenTo digits * tenTo k * one := hupper
      _ = tenTo digits * (one * tenTo k) := by ac_rfl
  · calc one * tenTo k * tenTo (digits - 1) = tenTo k * tenTo (digits - 1) * one := by ac_rfl
      _ ≤ value := hlower

/-- The smallest double has more than seventeen digits on the finest grid. -/
theorem unitsPerOne_mul_tenTo_le : unitsPerOne * tenTo 17 ≤ tenTo finest := by decide +kernel

/-- Up to seventeen digits the grids are coarser than the finest one. -/
theorem exists_onGrid (hbits : bits ≠ 0) {digits : Nat} (hpos : 0 < digits) (h : digits ≤ 17) :
    ∃ k, digitCount (units bits * tenTo finest / unitsPerOne) - digits = k ∧
      OnGrid (units bits * tenTo finest) (unitsPerOne * tenTo k) digits
        (units bits * tenTo finest / (unitsPerOne * tenTo k))
        (units bits * tenTo finest % (unitsPerOne * tenTo k)) := by
  have hone := unitsPerOne_pos
  have hleast : unitsPerOne * tenTo 17 ≤ units bits * tenTo finest :=
    unitsPerOne_mul_tenTo_le.trans (Nat.le_mul_of_pos_left _ (units_pos hbits))
  generalize units bits * tenTo finest = value at *
  generalize unitsPerOne = one at *
  have hmany : tenTo 17 ≤ value / one := by rwa [Nat.le_div_iff_mul_le hone, Nat.mul_comm]
  have hcount : 17 < digitCount (value / one) := lt_of_tenTo_lt (hmany.trans_lt (lt_tenTo_digitCount _))
  exact ⟨_, rfl, onGrid_div hone ((Nat.le_mul_of_pos_right one (tenTo_pos 17)).trans hleast) hpos (by omega)⟩

/-- On the grid of seventeen digits, the nearer neighbour reads back. -/
theorem OnGrid.reads_seventeen {k low rest : Nat}
    (h : OnGrid (units bits * tenTo finest) (unitsPerOne * tenTo k) 17 low rest) (hbits : bits < infinity) :
    nearest (low * tenTo k) (tenTo finest) = bits ∨ nearest ((low + 1) * tenTo k) (tenTo finest) = bits := by
  obtain ⟨hsplit, hrest, -, hlower⟩ := h
  have hreads (n : Nat) (habove : 2 ^ 54 * (n * (unitsPerOne * tenTo k)) < (2 ^ 54 + 1) * (units bits * tenTo finest))
      (hbelow : (2 ^ 54 - 1) * (units bits * tenTo finest) < 2 ^ 54 * (n * (unitsPerOne * tenTo k))) :
      nearest (n * tenTo k) (tenTo finest) = bits := by
    rw [Nat.mul_comm unitsPerOne, ← Nat.mul_assoc n] at habove hbelow
    exact nearest_of_close hbits habove hbelow
  have hnext : (low + 1) * (unitsPerOne * tenTo k) = low * (unitsPerOne * tenTo k) + unitsPerOne * tenTo k :=
    Nat.succ_mul _ _
  rw [show tenTo (17 - 1) = 10 ^ 16 from rfl] at hlower
  generalize units bits * tenTo finest = value at *
  generalize unitsPerOne * tenTo k = step at *
  rcases Nat.le_total (2 * rest) step with hlow | hhigh
  · exact .inl (hreads low (by omega) (by omega))
  · exact .inr (hreads (low + 1) (by omega) (by omega))

/-! ### The search -/

/-- If a neighbour reads back, so does the one that is taken. -/
theorem reads_taken (tie : Tie) (reads : Nat → Prop) [DecidablePred reads] {low : Nat} (rest den : Nat)
    (h : reads low ∨ reads (low + 1)) :
    reads (if takesUpper tie low rest den (reads low) (reads (low + 1)) then low + 1 else low) := by
  by_cases hlow : reads low <;> by_cases hupper : reads (low + 1)
  · split <;> assumption
  · simp [takesUpper, hlow, hupper]
  · simp [takesUpper, hlow, hupper]
  · exact absurd h (by simp [hlow, hupper])

theorem shortestWith_seventeen_ne_none (tie : Tie) (hbits : bits ≠ 0) (h : bits < infinity) :
    shortestWith tie bits 17 ≠ none := by
  obtain ⟨k, hk, hgrid⟩ := exists_onGrid hbits (by decide) (Nat.le_refl 17)
  have htaken := reads_taken tie (fun n => nearest (n * tenTo k) (tenTo finest) = bits)
    (units bits * tenTo finest % (unitsPerOne * tenTo k)) (unitsPerOne * tenTo k) (hgrid.reads_seventeen h)
  simp only [shortestWith, hk]
  rw [if_pos htaken]
  exact Option.some_ne_none _

theorem shortestWith_le {digits n : Nat} {e : Int} (hbits : bits ≠ 0) (hpos : 0 < digits) (h : digits ≤ 17)
    (hfound : shortestWith tie bits digits = some (n, e)) : n ≤ tenTo digits := by
  obtain ⟨k, hk, hgrid⟩ := exists_onGrid hbits hpos h
  simp only [shortestWith, hk] at hfound
  obtain ⟨-, heq⟩ := Option.ite_none_right_eq_some.1 hfound
  have hupper := hgrid.upper
  rw [← (Prod.mk.inj (Option.some.inj heq)).1]
  split <;> omega

theorem trimZeros_le (n : Nat) (e : Int) : (trimZeros n e).1 ≤ n := by
  fun_induction trimZeros n e with
  | case1 n e h ih => exact ih.trans (Nat.div_le_self n 10)
  | case2 n e h => exact Nat.le_refl n

/-- What is shown of a double has at most seventeen digits. -/
theorem shortest_le (tie : Tie) (hbits : bits ≠ 0) (h : bits < infinity) : (shortest tie bits).1 ≤ tenTo 17 := by
  refine (trimZeros_le _ _).trans ?_
  cases hsome : (List.range' 1 17).findSome? (shortestWith tie bits) with
  | none =>
    have hnone := List.findSome?_eq_none_iff.1 hsome 17 (by decide)
    exact absurd hnone (shortestWith_seventeen_ne_none tie hbits h)
  | some found =>
    obtain ⟨digits, hdigits, hfound⟩ := List.exists_of_findSome?_eq_some hsome
    rw [List.mem_range'_1] at hdigits
    have hle := shortestWith_le hbits (by omega) (by omega) hfound
    exact hle.trans (tenTo_le_tenTo (by omega))

end FormulaBar.Decimal
