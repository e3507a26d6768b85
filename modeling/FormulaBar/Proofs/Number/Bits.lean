import FormulaBar.Number
import Mathlib

/-!
# FormulaBar.Proofs.Number.Bits — a double is its sign and its magnitude

In the logical model of `Float` a double is given by its bits, and only the patterns of NaN other than the usual one are
changed on the way. So `ofMagnitude` with `isNegative` and `magnitude` are inverse to each other up to infinity.
-/

namespace FormulaBar.Binary64

open Float.Model Float.Model.UnpackedFloat

/-! ### Bits and doubles -/

/-- A pattern up to infinity is no NaN, so nothing is changed about it. -/
theorem valid_of_magnitude_le {b : UInt64} (h : b.toNat % signBit ≤ infinity) : Format.binary64.Valid b.toBitVec := by
  refine ⟨fun hexp hman => absurd h ?_⟩
  have hx : b.toNat / 4503599627370496 % 2048 = 2047 := by
    have := congrArg BitVec.toNat hexp
    simpa [unpackExponent, Nat.shiftRight_eq_div_pow] using this
  have hm : b.toNat % 4503599627370496 ≠ 0 := by
    intro h0
    refine hman (BitVec.eq_of_toNat_eq ?_)
    simpa [unpackMantissa] using h0
  simp only [signBit, infinity]
  omega

theorem toBits_ofBits {b : UInt64} (h : b.toNat % signBit ≤ infinity) : (Float.ofBits b).toBits = b := by
  show UInt64.ofBitVec (UnpackedFloat.pack .binary64 (UnpackedFloat.unpack .binary64 b.toBitVec)) = b
  rw [pack_unpack_of_valid (valid_of_magnitude_le h)]

variable {negative : Bool} {bits : Nat}

theorem lt_signBit (h : bits ≤ infinity) : bits < signBit := Nat.lt_of_le_of_lt h (by decide)

/-- The sign bit lies above the magnitude. -/
theorem signed_mod_signBit (h : bits ≤ infinity) : (if negative then signBit + bits else bits) % signBit = bits := by
  split
  · rw [Nat.add_mod_left, Nat.mod_eq_of_lt (lt_signBit h)]
  · exact Nat.mod_eq_of_lt (lt_signBit h)

theorem toBits_ofMagnitude (h : bits ≤ infinity) :
    (ofMagnitude negative bits).toBits.toNat = if negative then signBit + bits else bits := by
  have hword : (UInt64.ofNat (if negative then signBit + bits else bits)).toNat =
      if negative then signBit + bits else bits := by
    have hbound : bits < 9223372036854775808 := lt_signBit h
    rw [UInt64.toNat_ofNat']
    refine Nat.mod_eq_of_lt ?_
    simp only [signBit]
    split <;> omega
  rw [ofMagnitude, toBits_ofBits, hword]
  rwa [hword, signed_mod_signBit h]

@[simp] theorem magnitude_ofMagnitude (h : bits ≤ infinity) : magnitude (ofMagnitude negative bits) = bits := by
  rw [magnitude, toBits_ofMagnitude h, signed_mod_signBit h]

@[simp] theorem isNegative_ofMagnitude (h : bits ≤ infinity) : isNegative (ofMagnitude negative bits) = negative := by
  rw [isNegative, toBits_ofMagnitude h]
  cases negative with
  | false => exact decide_eq_false (Nat.not_le_of_lt (lt_signBit h))
  | true => exact decide_eq_true (Nat.le_add_right _ _)

@[simp] theorem ofMagnitude_magnitude (x : Float) : ofMagnitude (isNegative x) (magnitude x) = x := by
  have hlt := x.toBits.toNat_lt
  have hword : (if isNegative x then signBit + magnitude x else magnitude x) = x.toBits.toNat := by
    by_cases hneg : isNegative x
    · have hle : signBit ≤ x.toBits.toNat := by simpa [isNegative] using hneg
      rw [if_pos hneg]
      simp only [magnitude, signBit] at hle ⊢
      omega
    · have hgt : x.toBits.toNat < signBit := by simpa [isNegative] using hneg
      rw [if_neg hneg, magnitude, Nat.mod_eq_of_lt hgt]
  rw [ofMagnitude, hword, UInt64.ofNat_toNat, Float.ofBits_toBits]

theorem isFinite_ofMagnitude (h : bits ≤ infinity) :
    isFinite (ofMagnitude negative bits) = decide (bits < infinity) := by
  rw [isFinite, magnitude_ofMagnitude h]

end FormulaBar.Binary64
