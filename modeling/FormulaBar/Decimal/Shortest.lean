import FormulaBar.Decimal.Basic

/-!
# FormulaBar.Decimal.Shortest — the fewest digits that read back

For one, two, … seventeen digits, the two neighbours of the value on the grid of that many digits are read back. The
first grid with a neighbour that gives the value again wins; of two such neighbours the nearer is taken, and an exact
tie goes as the caller says. Should no grid answer, the exact decimal expansion does.
-/

namespace FormulaBar.Decimal

/-- Which of two equally near decimals is taken. -/
inductive Tie
  | up
  | even
deriving DecidableEq, Repr

/-- The grids count in units of `10 ^ -finest`, finer than seventeen digits of the smallest double. -/
def finest : Nat := 341

/-- The least number from `k` on of which the power of ten exceeds `n`. -/
def digitCountFrom (k n : Nat) : Nat := if tenTo k ≤ n then digitCountFrom (k + 1) n else k
termination_by n + 1 - tenTo k
decreasing_by
  have := tenTo_pos k
  have := tenTo_succ k
  omega

/-- Number of digits of a whole number. Since `10 ^ 59 < 2 ^ 196`, one of `b + 1` bits has more than `59 * b / 196`. -/
def digitCount (n : Nat) : Nat := digitCountFrom (59 * n.log2 / 196 + 1) n

theorem lt_tenTo_digitCountFrom (k n : Nat) : n < tenTo (digitCountFrom k n) := by
  fun_induction digitCountFrom k n with
  | case1 k _ ih => exact ih
  | case2 k h => omega

theorem tenTo_le_of_lt_digitCountFrom {k n j : Nat} (h : k ≤ j) (hj : j < digitCountFrom k n) : tenTo j ≤ n := by
  fun_induction digitCountFrom k n with
  | case1 k hk ih =>
    rcases Nat.eq_or_lt_of_le h with rfl | h
    · exact hk
    · exact ih h hj
  | case2 k _ => omega

theorem tenTo_log_estimate_le {n : Nat} (h : n ≠ 0) : tenTo (59 * n.log2 / 196) ≤ n := by
  refine Nat.le_trans ?_ (Nat.log2_self_le h)
  refine (Nat.pow_le_pow_iff_left (n := 196) (by decide)).1 ?_
  show (10 ^ (59 * n.log2 / 196)) ^ 196 ≤ (2 ^ n.log2) ^ 196
  rw [← Nat.pow_mul, ← Nat.pow_mul, Nat.mul_comm n.log2]
  refine Nat.le_trans (Nat.pow_le_pow_right (by decide) (Nat.div_mul_le_self _ _)) ?_
  rw [Nat.pow_mul, Nat.pow_mul]
  exact Nat.pow_le_pow_left (by decide) _

theorem lt_tenTo_digitCount (n : Nat) : n < tenTo (digitCount n) := lt_tenTo_digitCountFrom _ _

theorem tenTo_le_of_digitCount {n : Nat} (h : n ≠ 0) : tenTo (digitCount n - 1) ≤ n := by
  by_cases hc : 59 * n.log2 / 196 + 1 < digitCount n
  · exact tenTo_le_of_lt_digitCountFrom (Nat.le_pred_of_lt hc) (Nat.sub_lt (Nat.zero_lt_of_lt hc) (by decide))
  · exact Nat.le_trans (Nat.pow_le_pow_right (by decide) (by omega)) (tenTo_log_estimate_le h)

/-- Of the two grid neighbours `low` and `low + 1`, the upper one is taken. The value lies `rest / den` of a step above
the lower one, and the flags say which of them read back. -/
def takesUpper (tie : Tie) (low rest den : Nat) (lowReads upperReads : Bool) : Bool :=
  if lowReads && upperReads then
    den < 2 * rest || (den = 2 * rest && (tie = .up || low % 2 = 1))
  else upperReads

/-- The decimal of `digits` digits that reads back as the magnitude `bits`, if there is one. -/
def shortestWith (tie : Tie) (bits digits : Nat) : Option (Nat × Int) :=
  let num := Binary64.units bits * tenTo finest
  let step := digitCount (num / Binary64.unitsPerOne) - digits
  let den := Binary64.unitsPerOne * tenTo step
  let low := num / den
  let readsBack := fun n => Binary64.nearest (n * tenTo step) (tenTo finest) = bits
  let n := if takesUpper tie low (num % den) den (readsBack low) (readsBack (low + 1)) then low + 1 else low
  if readsBack n then some (n, (step : Int) - finest) else none

/-- The exact decimal expansion of the magnitude `bits`. -/
def expansion (bits : Nat) : Nat × Int := (Binary64.units bits * Nat.pow 5 1074, -1074)

/-- The fewest digits that read back as the magnitude `bits`: a coefficient without trailing zeros, a power of ten. -/
def shortest (tie : Tie) (bits : Nat) : Nat × Int :=
  let found := ((List.range' 1 17).findSome? (shortestWith tie bits)).getD (expansion bits)
  trimZeros found.1 found.2

end FormulaBar.Decimal
