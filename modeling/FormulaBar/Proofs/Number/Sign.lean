import FormulaBar.Proofs.Number.Bits

/-!
# FormulaBar.Proofs.Number.Sign — negation and order of doubles

Negation, absolute value and the order against zero are operations of `Float`, and `Binary64` cuts a double into its
sign and its magnitude. Both agree on finite doubles: negating turns the sign around, the absolute value drops it, and
a double lies above or below zero by its sign unless its magnitude is zero. In the logical model an operation reads the bits as
`Parts`, so each fact is shown there first.
-/

namespace FormulaBar.Binary64

open Float.Model Float.Model.UnpackedFloat

/-! ### Sign, exponent and fraction -/

/-- The sign as the logical model of doubles has it. -/
def modelSign : Bool → UnpackedFloat.Sign
  | true => .negative
  | false => .positive

theorem neg_modelSign (negative : Bool) : -modelSign negative = modelSign (!negative) := by
  cases negative <;> rfl

theorem exists_modelSign (s : UnpackedFloat.Sign) : ∃ negative, s = modelSign negative := by
  cases s with
  | negative => exact ⟨true, rfl⟩
  | positive => exact ⟨false, rfl⟩

/-- The bits of `x` are a sign, an exponent and a fraction, one after another. -/
structure Parts (x : Float) (negative : Bool) (e : BitVec 11) (m : BitVec 52) : Prop where
  toBits : x.toBits.toBitVec = packComponents .binary64 (modelSign negative) e m

theorem exists_parts (x : Float) : ∃ negative e m, Parts x negative e m := by
  have hcut := @packComponents_unpackSign_unpackExponent_unpackMantissa .binary64 x.toBits.toBitVec
  obtain ⟨negative, hsign⟩ := exists_modelSign (Sign.ofBitVec (@unpackSign .binary64 x.toBits.toBitVec))
  rw [hsign] at hcut
  exact ⟨negative, _, _, ⟨hcut.symm⟩⟩

theorem toNat_packComponents (s : UnpackedFloat.Sign) (e : BitVec 11) (m : BitVec 52) :
    (packComponents .binary64 s e m).toNat = s.toBitVec.toNat * signBit + (e.toNat * exponentUnit + m.toNat) := by
  have he := e.isLt
  have hm := m.isLt
  show (s.toBitVec ++ e ++ m).toNat = _
  rw [BitVec.toNat_append, ← Nat.shiftLeft_add_eq_or_of_lt hm, Nat.shiftLeft_eq,
    BitVec.toNat_append, ← Nat.shiftLeft_add_eq_or_of_lt he, Nat.shiftLeft_eq]
  simp only [signBit, exponentUnit]
  omega

variable {x : Float} {negative : Bool} {e : BitVec 11} {m : BitVec 52}

namespace Parts

theorem toNat (h : Parts x negative e m) :
    x.toBits.toNat = (modelSign negative).toBitVec.toNat * signBit + (e.toNat * exponentUnit + m.toNat) := by
  rw [← toNat_packComponents, ← h.toBits]
  rfl

/-- Exponent and fraction stay below the sign bit. -/
theorem unsigned_lt (e : BitVec 11) (m : BitVec 52) : e.toNat * exponentUnit + m.toNat < signBit := by
  have he := e.isLt
  have hm := m.isLt
  simp only [exponentUnit, signBit]
  omega

theorem magnitude (h : Parts x negative e m) : Binary64.magnitude x = e.toNat * exponentUnit + m.toNat := by
  rw [Binary64.magnitude, h.toNat, Nat.mul_add_mod', Nat.mod_eq_of_lt (unsigned_lt e m)]

theorem isNegative (h : Parts x negative e m) : Binary64.isNegative x = negative := by
  have hlt := unsigned_lt e m
  rw [Binary64.isNegative, h.toNat]
  cases negative with
  | true => simp [modelSign, Sign.toBitVec]
  | false => simpa [modelSign, Sign.toBitVec] using hlt

/-- A finite double has another exponent than ones only. -/
theorem exponent_ne (h : Parts x negative e m) (hx : isFinite x = true) : e ≠ -1#11 := by
  rintro rfl
  have hlt : Binary64.magnitude x < infinity := of_decide_eq_true hx
  have hones : (-1#11).toNat = 2047 := by decide
  rw [h.magnitude, hones] at hlt
  simp only [exponentUnit, infinity] at hlt
  omega

theorem valid (hexponent : e ≠ -1#11) (negative : Bool) :
    Format.binary64.Valid (packComponents .binary64 (modelSign negative) e m) := by
  refine ⟨fun hones => absurd ?_ hexponent⟩
  rwa [unpackExponent_packComponents] at hones

/-! ### The operations of the logical model -/

/-- What the logical model makes of these parts is a zero or a finite number, whatever the sign. -/
theorem unpack_cases (hexponent : e ≠ -1#11) :
    (e.toNat * exponentUnit + m.toNat = 0 ∧
        ∀ s, UnpackedFloat.unpack .binary64 (packComponents .binary64 s e m) = .zero s) ∨
      (e.toNat * exponentUnit + m.toNat ≠ 0 ∧ ∃ mantissa exponent hpos,
        ∀ s, UnpackedFloat.unpack .binary64 (packComponents .binary64 s e m) = .finite s mantissa exponent hpos) := by
  simp only [UnpackedFloat.unpack, unpackExponent_packComponents, unpackMantissa_packComponents,
    unpackSign_packComponents, Sign.ofBitVec_toBitVec, if_neg hexponent]
  -- without an exponent the mantissa alone tells a zero from a subnormal number
  by_cases he : e = 0#11
  · by_cases hm : m = 0#52
    · subst he hm
      exact .inl ⟨rfl, by simp⟩
    · have hm0 : m.toNat ≠ 0 := fun h0 => hm (BitVec.eq_of_toNat_eq h0)
      simp only [if_pos he, dif_neg hm]
      exact .inr ⟨by omega, m.toNat, _, Nat.pos_of_ne_zero hm0, fun _ => rfl⟩
  -- with one, the implicit bit is in front
  · have he0 : e.toNat ≠ 0 := fun h0 => he (BitVec.eq_of_toNat_eq h0)
    have hpos : 0 < (1#1 ++ m).toNat := by
      rw [BitVec.toNat_append, ← Nat.shiftLeft_add_eq_or_of_lt m.isLt, Nat.shiftLeft_eq]
      simp
    simp only [if_neg he]
    refine .inr ⟨?_, (1#1 ++ m).toNat, _, hpos, fun _ => rfl⟩
    simp only [exponentUnit]
    omega

theorem unpack (h : Parts x negative e m) :
    x.toModel.unpack = UnpackedFloat.unpack .binary64 (packComponents .binary64 (modelSign negative) e m) := by
  rw [← h.toBits]
  rfl

/-- A finite double is a zero, or a number of its sign. -/
theorem zero_or_finite (h : Parts x negative e m) (hx : isFinite x = true) :
    Binary64.magnitude x = 0 ∧ x.toModel.unpack = .zero (modelSign negative) ∨
      Binary64.magnitude x ≠ 0 ∧ ∃ mantissa exponent hpos,
        x.toModel.unpack = .finite (modelSign negative) mantissa exponent hpos := by
  rw [h.unpack, h.magnitude]
  rcases unpack_cases (h.exponent_ne hx) with ⟨h0, hzero⟩ | ⟨h0, mantissa, exponent, hpos, hfinite⟩
  · exact .inl ⟨h0, hzero _⟩
  · exact .inr ⟨h0, mantissa, exponent, hpos, hfinite _⟩

theorem neg (h : Parts x negative e m) (hx : isFinite x = true) : Parts (-x) (!negative) e m := by
  constructor
  show UnpackedFloat.pack .binary64 x.toModel.unpack.neg = _
  have hturned : x.toModel.unpack.neg =
      UnpackedFloat.unpack .binary64 (packComponents .binary64 (modelSign !negative) e m) := by
    rw [h.unpack, ← neg_modelSign]
    rcases unpack_cases (h.exponent_ne hx) with ⟨-, hzero⟩ | ⟨-, _, _, _, hfinite⟩
    · rw [hzero, hzero]
      rfl
    · rw [hfinite, hfinite]
      rfl
  rw [hturned, pack_unpack_of_valid (valid (h.exponent_ne hx) _)]

theorem abs (h : Parts x negative e m) (hx : isFinite x = true) : Parts x.abs false e m := by
  constructor
  show UnpackedFloat.pack .binary64 x.toModel.unpack.abs = _
  have hdropped : x.toModel.unpack.abs =
      UnpackedFloat.unpack .binary64 (packComponents .binary64 (modelSign false) e m) := by
    rw [h.unpack]
    rcases unpack_cases (h.exponent_ne hx) with ⟨-, hzero⟩ | ⟨-, _, _, _, hfinite⟩
    · rw [hzero, hzero]
      rfl
    · rw [hfinite, hfinite]
      rfl
  rw [hdropped, pack_unpack_of_valid (valid (h.exponent_ne hx) _)]

end Parts

/-! ### Negation and absolute value -/

theorem neg_eq (hx : isFinite x = true) : -x = ofMagnitude (!isNegative x) (magnitude x) := by
  obtain ⟨negative, e, m, h⟩ := exists_parts x
  have hneg := h.neg hx
  rw [h.isNegative, h.magnitude, ← hneg.magnitude]
  conv => rhs; rw [← hneg.isNegative]
  rw [ofMagnitude_magnitude]

theorem abs_eq (hx : isFinite x = true) : x.abs = ofMagnitude false (magnitude x) := by
  obtain ⟨negative, e, m, h⟩ := exists_parts x
  have habs := h.abs hx
  rw [h.magnitude, ← habs.magnitude]
  conv => rhs; rw [← habs.isNegative]
  rw [ofMagnitude_magnitude]

/-! ### Above, below and at zero -/

theorem lt_iff_unpack (x y : Float) : x < y ↔ x.toModel.unpack.lt y.toModel.unpack = true := decide_eq_true_iff

theorem unpack_zero : (0 : Float).toModel.unpack = .zero .positive := rfl

/-- A finite double lies above or below zero by its sign, unless it is one. -/
theorem lt_zero_cases (hx : isFinite x = true) : (0 < x ↔ isNegative x = false ∧ magnitude x ≠ 0) ∧
    (x < 0 ↔ isNegative x = true ∧ magnitude x ≠ 0) := by
  obtain ⟨negative, e, m, h⟩ := exists_parts x
  rw [lt_iff_unpack, lt_iff_unpack, unpack_zero, h.isNegative]
  rcases h.zero_or_finite hx with ⟨hzero, hunpack⟩ | ⟨hne, _, _, _, hunpack⟩
  · rw [hunpack]
    simp [UnpackedFloat.lt, UnpackedFloat.compare, hzero]
  · rw [hunpack]
    cases negative <;> simp [UnpackedFloat.lt, UnpackedFloat.compare, hne, modelSign]

theorem zero_lt_iff (hx : isFinite x = true) : 0 < x ↔ isNegative x = false ∧ magnitude x ≠ 0 :=
  (lt_zero_cases hx).1

theorem lt_zero_iff (hx : isFinite x = true) : x < 0 ↔ isNegative x = true ∧ magnitude x ≠ 0 :=
  (lt_zero_cases hx).2

theorem ofMagnitude_zero : ofMagnitude false 0 = 0 ∧ ofMagnitude true 0 = -0 := ⟨rfl, rfl⟩

end FormulaBar.Binary64
