import FormulaBar.Number
import FormulaBar.Proofs.Number.Closest
import FormulaBar.Proofs.Number.Shortest

/-!
# FormulaBar.Proofs.Number.Literals — which texts are numbers

A text is read as a decimal exactly if it is a literal (`ofLiteral?_eq_some_iff`), in one way only
(`Literal.chars_injective`), and it is a number exactly if that decimal rounds to a finite double
(`Number.ofText?_reads_literals`). The digits of a power of ten are counted up to a bound. Literals of a usual length
round to the same double all the same (`Literal.toFloat_counted`), but one of many digits need not
(`Number.ofText?_uncounted`).
-/

namespace FormulaBar

namespace Decimal

open Binary64

variable {cs ds rest whole : List Char}

/-! ### Literals -/

/-- A sign that may be left out; `true` is minus. -/
def signChars : Option Bool → List Char
  | none => []
  | some true => ['-']
  | some false => ['+']

theorem mem_signChars {s : Option Bool} {c : Char} (h : c ∈ signChars s) : c = '-' ∨ c = '+' := by
  match s with
  | none => cases h
  | some true => exact .inl (List.mem_singleton.1 h)
  | some false => exact .inr (List.mem_singleton.1 h)

/-- A point and the digits behind it, which may be left out together. -/
@[simp] def pointChars : Option (List Char) → List Char
  | none => []
  | some ds => '.' :: ds

theorem mem_pointChars {fraction : Option (List Char)} {c : Char} (h : c ∈ pointChars fraction) :
    c = '.' ∨ c ∈ fraction.getD [] := by
  cases fraction with
  | none => cases h
  | some ds => exact List.mem_cons.1 h

/-- The power of ten that may end a literal: a mark, perhaps a sign, and digits. -/
structure Power where
  mark : Char
  negative : Option Bool
  digits : List Char
  isMark : mark = 'e' ∨ mark = 'E'
  digits_ne_nil : digits ≠ []
  isDigit : ∀ c ∈ digits, c.isDigit = true

namespace Power

def chars (p : Power) : List Char := p.mark :: (signChars p.negative ++ p.digits)

theorem mem_chars (p : Power) {c : Char} (h : c ∈ p.chars) :
    (c = 'e' ∨ c = 'E') ∨ (c = '-' ∨ c = '+') ∨ c.isDigit = true := by
  rcases List.mem_cons.1 h with rfl | h
  · exact .inl p.isMark
  · exact .inr ((List.mem_append.1 h).imp mem_signChars (p.isDigit c))

/-- The power itself, when its digits stand for `n`. -/
def signed (p : Power) (n : Nat) : Int := if p.negative.getD false then -n else n

end Power

/-- The power that ends a literal, or nothing. -/
@[simp] def powerChars : Option Power → List Char
  | none => []
  | some p => p.chars

theorem mem_powerChars {power : Option Power} {c : Char} (h : c ∈ powerChars power) :
    ∃ p, power = some p ∧ c ∈ p.chars := by
  cases power with
  | none => cases h
  | some p => exact ⟨p, rfl, h⟩

/-- A decimal literal: `[+-]? (digits [. digits?] | . digits) ([eE] [+-]? digits)?`. -/
structure Literal where
  negative : Option Bool
  whole : List Char
  fraction : Option (List Char)
  power : Option Power
  isDigit_whole : ∀ c ∈ whole, c.isDigit = true
  isDigit_fraction : ∀ ds ∈ fraction, ∀ c ∈ ds, c.isDigit = true
  hasDigit : whole ≠ [] ∨ fraction.getD [] ≠ []

namespace Literal

variable (l : Literal)

/-- The digits behind the point, if there are any. -/
def places : List Char := l.fraction.getD []

/-- The literal as it is written. -/
def chars : List Char :=
  signChars l.negative ++ (l.whole ++ (pointChars l.fraction ++ powerChars l.power))

/-- The decimal, where `count` reads the digits of the power. -/
def decimalWith (count : List Char → Nat) : Decimal where
  negative := l.negative.getD false
  coefficient := natOfDigits (l.whole ++ l.places)
  exponent := l.power.elim 0 (fun p => p.signed (count p.digits)) - l.places.length

/-- The decimal that the literal denotes. -/
def decimal : Decimal := l.decimalWith natOfDigits

/-- The decimal that the literal is read as. -/
def counted : Decimal := l.decimalWith exponentOfDigits

end Literal

/-! ### The parts of a literal -/

theorem splitSign_signChars (s : Option Bool) (h : ∀ c ∈ cs.head?, c ≠ '-' ∧ c ≠ '+') :
    splitSign (signChars s ++ cs) = (s.getD false, cs) := by
  match s with
  | some true => rfl
  | some false => rfl
  | none =>
    show splitSign cs = (false, cs)
    unfold splitSign
    split
    · exact absurd rfl (h '-' rfl).1
    · exact absurd rfl (h '+' rfl).2
    · rfl

theorem exists_signChars (cs : List Char) :
    ∃ s, signChars s ++ (splitSign cs).2 = cs ∧ s.getD false = (splitSign cs).1 := by
  unfold splitSign
  split
  · exact ⟨some true, rfl, rfl⟩
  · exact ⟨some false, rfl, rfl⟩
  · exact ⟨none, rfl, rfl⟩

theorem ne_sign_of_isDigit {c : Char} (h : c.isDigit = true) : c ≠ '-' ∧ c ≠ '+' :=
  ⟨fun heq => absurd h (by rw [heq]; decide), fun heq => absurd h (by rw [heq]; decide)⟩

/-- Neither a digit nor a point stands behind the digits of a literal. -/
theorem splitMantissa_append {fraction : Option (List Char)} (hw : ∀ c ∈ whole, c.isDigit = true)
    (hf : ∀ ds ∈ fraction, ∀ c ∈ ds, c.isDigit = true) (hrest : ∀ c ∈ rest.head?, c.isDigit = false ∧ c ≠ '.') :
    splitMantissa (whole ++ (pointChars fraction ++ rest)) = (whole, fraction.getD [], rest) := by
  have hstop : rest.takeWhile Char.isDigit = [] ∧ rest.dropWhile Char.isDigit = rest := by
    cases rest with
    | nil => exact ⟨rfl, rfl⟩
    | cons c cs => simp [(hrest c rfl).1]
  rw [splitMantissa, List.dropWhile_append_of_pos hw, List.takeWhile_append_of_pos hw]
  cases fraction with
  | none =>
    simp only [pointChars, List.nil_append, Option.getD_none, hstop, List.append_nil]
    split
    · exact absurd rfl (hrest '.' rfl).2
    · rfl
  | some ds =>
    have hpoint : ¬Char.isDigit '.' = true := by decide
    simp only [pointChars, List.cons_append, List.dropWhile_cons_of_neg hpoint,
      List.takeWhile_cons_of_neg hpoint, List.takeWhile_append_of_pos (hf ds rfl),
      List.dropWhile_append_of_pos (hf ds rfl), hstop, List.append_nil, Option.getD_some]

theorem exists_mantissa (h : splitMantissa cs = (whole, ds, rest)) : (∀ c ∈ whole, c.isDigit = true) ∧
    ∃ fraction : Option (List Char), fraction.getD [] = ds ∧ (∀ ds ∈ fraction, ∀ c ∈ ds, c.isDigit = true) ∧
      whole ++ (pointChars fraction ++ rest) = cs := by
  have hdigits (cs : List Char) : ∀ c ∈ cs.takeWhile Char.isDigit, c.isDigit = true := fun c hc =>
    List.mem_takeWhile_imp hc
  rw [splitMantissa] at h
  split at h
  · next tail htail =>
    cases h
    refine ⟨hdigits cs, some (tail.takeWhile Char.isDigit), rfl, ?_, ?_⟩
    · rintro ds ⟨rfl⟩
      exact hdigits tail
    · simp only [pointChars, List.cons_append, List.takeWhile_append_dropWhile, ← htail]
  · next hpoint =>
    cases h
    exact ⟨hdigits cs, none, rfl, by simp, by simp⟩

theorem readExponent_chars (power : Option Power) : readExponent (powerChars power) =
    some (power.elim 0 fun p => p.signed (exponentOfDigits p.digits)) := by
  cases power with
  | none => rfl
  | some p =>
    have hsign := splitSign_signChars p.negative fun c hc => ne_sign_of_isDigit (p.isDigit c (List.mem_of_head? hc))
    simp only [Option.elim_some, powerChars, Power.chars, readExponent, if_pos p.isMark, hsign]
    rw [if_pos ⟨p.digits_ne_nil, List.all_eq_true.2 p.isDigit⟩]
    rfl

theorem exists_power {e : Int} (h : readExponent cs = some e) : ∃ power : Option Power,
    powerChars power = cs ∧ (power.elim 0 fun p => p.signed (exponentOfDigits p.digits)) = e := by
  cases cs with
  | nil => exact ⟨none, rfl, Option.some.inj h⟩
  | cons mark cs =>
    obtain ⟨s, hchars, hsign⟩ := exists_signChars cs
    rw [readExponent] at h
    generalize splitSign cs = parts at *
    obtain ⟨negative, ds⟩ := parts
    obtain ⟨hmark, h⟩ := Option.ite_none_right_eq_some.1 h
    obtain ⟨⟨hne, hall⟩, h⟩ := Option.ite_none_right_eq_some.1 h
    refine ⟨some ⟨mark, s, ds, hmark, hne, List.all_eq_true.1 hall⟩, congrArg (mark :: ·) hchars, ?_⟩
    obtain rfl : s.getD false = negative := hsign
    exact Option.some.inj h

/-! ### Reading a literal -/

namespace Literal

variable (l : Literal)

theorem head?_power : ∀ c ∈ (powerChars l.power).head?, c.isDigit = false ∧ c ≠ '.' := by
  intro c hc
  cases hpower : l.power with
  | none => rw [hpower] at hc; cases hc
  | some p =>
    rw [hpower] at hc
    cases hc
    rcases p.isMark with h | h <;> rw [h] <;> decide

/-- What follows the sign starts with a digit or the point. -/
theorem head?_unsigned : ∀ c ∈ (l.whole ++ (pointChars l.fraction ++ powerChars l.power)).head?,
    c ≠ '-' ∧ c ≠ '+' := by
  intro c hc
  cases hwhole : l.whole with
  | cons d ds =>
    rw [hwhole] at hc
    cases hc
    exact ne_sign_of_isDigit (l.isDigit_whole c (by simp [hwhole]))
  | nil =>
    obtain ⟨ds, hfraction⟩ : ∃ ds, l.fraction = some ds := by
      cases hfraction : l.fraction with
      | none => exact (l.hasDigit.elim (· hwhole) (· (by rw [hfraction]; rfl))).elim
      | some ds => exact ⟨ds, rfl⟩
    rw [hwhole, hfraction] at hc
    cases hc
    decide

theorem splitSign_chars : splitSign l.chars =
    (l.negative.getD false, l.whole ++ (pointChars l.fraction ++ powerChars l.power)) :=
  splitSign_signChars l.negative l.head?_unsigned

theorem splitMantissa_chars : splitMantissa (splitSign l.chars).2 =
    (l.whole, l.places, powerChars l.power) := by
  rw [splitSign_chars]
  exact splitMantissa_append l.isDigit_whole l.isDigit_fraction l.head?_power

theorem ofLiteral?_chars : ofLiteral? l.chars = some l.counted := by
  have hdigit : ¬(l.whole = [] ∧ l.places = []) := not_and_or.2 l.hasDigit
  have hsign := congrArg Prod.fst l.splitSign_chars
  simp only [ofLiteral?, splitMantissa_chars, if_neg hdigit, readExponent_chars, Option.map_some]
  rw [hsign]
  rfl

end Literal

/-- The texts that are read are the literals. -/
theorem ofLiteral?_eq_some_iff {d : Decimal} : ofLiteral? cs = some d ↔ ∃ l : Literal, l.chars = cs ∧ l.counted = d := by
  constructor
  · intro h
    obtain ⟨s, hsigned, hs⟩ := exists_signChars cs
    generalize hmantissa : splitMantissa (splitSign cs).2 = parts at *
    obtain ⟨whole, ds, rest⟩ := parts
    obtain ⟨hwhole, fraction, rfl, hfraction, hunsigned⟩ := exists_mantissa hmantissa
    simp only [ofLiteral?, hmantissa] at h
    obtain ⟨hdigit, h⟩ := Option.ite_none_left_eq_some.1 h
    obtain ⟨e, he, rfl⟩ := Option.map_eq_some_iff.1 h
    obtain ⟨power, rfl, rfl⟩ := exists_power he
    refine ⟨⟨s, whole, fraction, power, hwhole, hfraction, not_and_or.1 hdigit⟩, ?_, ?_⟩
    · rw [Literal.chars, hunsigned, hsigned]
    · rw [← hs]
      rfl
  · rintro ⟨l, rfl, rfl⟩
    exact l.ofLiteral?_chars

/-! ### One way to write it -/

theorem signChars_injective {s t : Option Bool} (h : signChars s = signChars t) : s = t := by
  match s, t with
  | none, none | some true, some true | some false, some false => rfl
  | none, some true | none, some false | some true, none | some false, none => cases h
  | some true, some false | some false, some true => exact absurd h (by decide)

theorem Power.chars_injective {p q : Power} (h : p.chars = q.chars) : p = q := by
  obtain ⟨hmark, hsigned⟩ := List.cons.inj h
  have hhead (r : Power) : ∀ c ∈ r.digits.head?, c ≠ '-' ∧ c ≠ '+' := fun c hc =>
    ne_sign_of_isDigit (r.isDigit c (List.mem_of_head? hc))
  have hsplit := congrArg splitSign hsigned
  rw [splitSign_signChars _ (hhead p), splitSign_signChars _ (hhead q)] at hsplit
  have hdigits : p.digits = q.digits := (Prod.mk.inj hsplit).2
  rw [hdigits] at hsigned
  have hnegative := signChars_injective (List.append_cancel_right hsigned)
  cases p
  cases q
  simp_all

namespace Literal

/-- The grammar is unambiguous. -/
theorem chars_injective {l k : Literal} (h : l.chars = k.chars) : l = k := by
  -- the readers find the parts of a literal again, so equal texts have equal parts
  have hmantissa := congrArg (fun cs => splitMantissa (splitSign cs).2) h
  simp only [splitMantissa_chars, Prod.mk.injEq] at hmantissa
  obtain ⟨hwhole, -, hends⟩ := hmantissa
  have hunsigned := congrArg (fun cs => (splitSign cs).2) h
  simp only [splitSign_chars] at hunsigned
  have hnegative : l.negative = k.negative := by
    rw [chars, chars, hunsigned] at h
    exact signChars_injective (List.append_cancel_right h)
  have hfraction : l.fraction = k.fraction := by
    rw [hwhole, hends] at hunsigned
    have hpoint := List.append_cancel_right (List.append_cancel_left hunsigned)
    cases hl : l.fraction <;> cases hk : k.fraction <;> simp_all
  have hpower : l.power = k.power := by
    cases hl : l.power with
    | none => cases hk : k.power <;> simp_all [Power.chars]
    | some p =>
      cases hk : k.power with
      | none => simp_all [Power.chars]
      | some q =>
        rw [hl, hk] at hends
        exact congrArg some (Power.chars_injective hends)
  cases l
  cases k
  simp_all

end Literal

/-! ### Counting the digits of a power -/

theorem natOfDigits_concat (ds : List Char) (c : Char) :
    natOfDigits (ds ++ [c]) = 10 * natOfDigits ds + digitValue c := by
  rw [natOfDigits, List.foldl_append]
  rfl

theorem exponentOfDigits_concat (ds : List Char) (c : Char) : exponentOfDigits (ds ++ [c]) =
    if exponentOfDigits ds < exponentBound then 10 * exponentOfDigits ds + digitValue c else exponentOfDigits ds := by
  rw [exponentOfDigits, List.foldl_append]
  rfl

/-- All digits are counted, or enough of them to reach the bound. -/
theorem exponentOfDigits_spec (ds : List Char) : exponentOfDigits ds = natOfDigits ds ∨
    exponentBound ≤ exponentOfDigits ds ∧ 10 * exponentBound ≤ natOfDigits ds := by
  induction ds using List.reverseRecOn with
  | nil => exact .inl rfl
  | append_singleton ds c ih =>
    rw [exponentOfDigits_concat, natOfDigits_concat]
    split
    · next hlt =>
      obtain heq | ⟨hle, -⟩ := ih
      · exact .inl (by rw [heq])
      · omega
    · next hge =>
      obtain heq | ⟨hle, hnat⟩ := ih
      · exact .inr ⟨by omega, by omega⟩
      · exact .inr ⟨hle, by omega⟩

theorem toNat_of_isDigit {c : Char} (h : c.isDigit = true) : 48 ≤ c.toNat ∧ c.toNat ≤ 57 := by
  simp only [Char.isDigit, Bool.and_eq_true, decide_eq_true_eq, UInt32.le_iff_toNat_le] at h
  exact h

theorem digitValue_lt {c : Char} (h : c.isDigit = true) : digitValue c < 10 := by
  have hcode := toNat_of_isDigit h
  simp only [digitValue, show '0'.toNat = 48 from rfl]
  omega

theorem natOfDigits_lt (h : ∀ c ∈ ds, c.isDigit = true) : natOfDigits ds < tenTo ds.length := by
  induction ds using List.reverseRecOn with
  | nil => decide
  | append_singleton ds c ih =>
    have hinit := ih fun d hd => h d (List.mem_append_left _ hd)
    have hlast := digitValue_lt (h c (by simp))
    rw [natOfDigits_concat, List.length_append, List.length_singleton, tenTo_succ]
    omega

/-! ### Far from one -/

theorem magnitude_eq_infinity {d : Decimal} (hpos : 0 < d.coefficient) (h : 309 ≤ d.exponent) :
    d.magnitude = infinity := by
  obtain ⟨k, hk⟩ : ∃ k : Nat, d.exponent = k := ⟨d.exponent.toNat, by omega⟩
  refine le_antisymm (nearest_le_infinity _ _) ?_
  calc infinity = nearest (tenTo 309) 1 := by decide +kernel
    _ ≤ nearest (d.coefficient * tenTo d.exponent.toNat) (tenTo (-d.exponent).toNat) := by
      refine nearest_le_nearest Nat.one_pos (tenTo_pos _) ?_
      rw [show (-d.exponent).toNat = 0 by omega, show tenTo 0 = 1 from rfl, Nat.mul_one, Nat.mul_one]
      exact (tenTo_le_tenTo (by omega)).trans (Nat.le_mul_of_pos_left _ hpos)

theorem magnitude_eq_zero {d : Decimal} {k : Nat} (hle : d.coefficient ≤ tenTo k) (h : d.exponent + k ≤ -324) :
    d.magnitude = 0 := by
  refine Nat.le_zero.1 ?_
  calc nearest (d.coefficient * tenTo d.exponent.toNat) (tenTo (-d.exponent).toNat) ≤ nearest 1 (tenTo 324) := by
        refine nearest_le_nearest (tenTo_pos _) (tenTo_pos _) ?_
        rw [show d.exponent.toNat = 0 by omega, show tenTo 0 = 1 from rfl, Nat.mul_one, Nat.one_mul]
        refine (Nat.mul_le_mul_right _ hle).trans ?_
        rw [← tenTo_add]
        exact tenTo_le_tenTo (by omega)
    _ = 0 := by decide +kernel

namespace Literal

variable {l : Literal}

/-- The power is below ten times the bound, or the literal has so few digits that the bound is as good. -/
def Counted (l : Literal) : Prop :=
  (∀ p ∈ l.power, natOfDigits p.digits < 10 * exponentBound) ∨ (l.whole ++ l.places).length + 324 ≤ exponentBound

theorem isDigit_places (l : Literal) : ∀ c ∈ l.places, c.isDigit = true := by
  intro c hc
  cases hfraction : l.fraction with
  | none => rw [places, hfraction] at hc; cases hc
  | some ds =>
    rw [places, hfraction] at hc
    exact l.isDigit_fraction ds hfraction c hc

theorem coefficient_lt (l : Literal) : natOfDigits (l.whole ++ l.places) < tenTo (l.whole ++ l.places).length :=
  natOfDigits_lt fun c hc => (List.mem_append.1 hc).elim (l.isDigit_whole c) (l.isDigit_places c)

/-- When both readings of the power reach the bound, few digits round to zero or to infinity either way. -/
theorem magnitude_decimalWith {p : Power} (hpower : l.power = some p)
    (hshort : (l.whole ++ l.places).length + 324 ≤ exponentBound) {count : List Char → Nat}
    (hcount : exponentBound ≤ count p.digits) : (l.decimalWith count).magnitude =
      if natOfDigits (l.whole ++ l.places) = 0 ∨ p.negative.getD false = true then 0 else infinity := by
  have hexponent : (l.decimalWith count).exponent = p.signed (count p.digits) - l.places.length := by
    rw [decimalWith, hpower]
    rfl
  rw [List.length_append] at hshort
  -- a zero stays zero, a negative power takes the digits below every double, and any other beyond
  split
  · next hzero =>
    rcases hzero with hzero | hnegative
    · show nearest (natOfDigits (l.whole ++ l.places) * _) _ = 0
      rw [hzero, Nat.zero_mul, nearest_zero]
    · refine magnitude_eq_zero l.coefficient_lt.le ?_
      rw [hexponent, Power.signed, if_pos hnegative, List.length_append]
      push_cast
      omega
  · next hpos =>
    obtain ⟨hne, hpositive⟩ := not_or.1 hpos
    refine magnitude_eq_infinity (Nat.pos_of_ne_zero hne) ?_
    rw [hexponent, Power.signed, if_neg hpositive]
    omega

/-- Digits of the power that are not counted make no difference to the double. -/
theorem toFloat_counted (h : l.Counted) : l.counted.toFloat = l.decimal.toFloat := by
  cases hpower : l.power with
  | none => simp [counted, decimal, decimalWith, hpower]
  | some p =>
    obtain hexact | ⟨hle, hnat⟩ := exponentOfDigits_spec p.digits
    · simp [counted, decimal, decimalWith, hpower, hexact]
    · have hshort := h.resolve_left fun hsmall => absurd (hsmall p hpower) (by omega)
      have hsame : l.counted.magnitude = l.decimal.magnitude :=
        (magnitude_decimalWith hpower hshort hle).trans (magnitude_decimalWith hpower hshort (by omega)).symm
      rw [toFloat, toFloat, hsame]
      rfl

/-- The characters that stand in literals. -/
theorem mem_chars {c : Char} (h : c ∈ l.chars) : c.isDigit = true ∨ c ∈ ['-', '+', '.', 'e', 'E'] := by
  simp only [chars, List.mem_append] at h
  rcases h with h | h | h | h
  · exact .inr (by rcases mem_signChars h with rfl | rfl <;> decide)
  · exact .inl (l.isDigit_whole c h)
  · rcases mem_pointChars h with rfl | h
    · exact .inr (by decide)
    · exact .inl (l.isDigit_places c h)
  · obtain ⟨p, -, hp⟩ := mem_powerChars h
    rcases p.mem_chars hp with (rfl | rfl) | (rfl | rfl) | hdigit
    · exact .inr (by decide)
    · exact .inr (by decide)
    · exact .inr (by decide)
    · exact .inr (by decide)
    · exact .inl hdigit

end Literal

end Decimal

namespace Number

open Binary64 Decimal

variable {cs : List Char}

/-! ### Reading a number -/

theorem ofChars?_eq_some_iff {x : Float} :
    ofChars? cs = some x ↔ ∃ l : Literal, l.chars = cs ∧ isFinite x = true ∧ l.counted.toFloat = x := by
  have hfinite (d : Decimal) : isFinite d.toFloat = decide (d.magnitude < infinity) :=
    isFinite_ofMagnitude (nearest_le_infinity _ _)
  simp only [ofChars?, Option.bind_eq_some_iff, ofLiteral?_eq_some_iff, Option.ite_none_right_eq_some,
    Option.some.injEq]
  constructor
  · rintro ⟨d, ⟨l, hchars, rfl⟩, hlt, rfl⟩
    exact ⟨l, hchars, by rw [hfinite, decide_eq_true hlt], rfl⟩
  · rintro ⟨l, hchars, hx, rfl⟩
    rw [hfinite] at hx
    exact ⟨l.counted, ⟨l, hchars, rfl⟩, of_decide_eq_true hx, rfl⟩

/-- The words that stand for a float that is no finite number. -/
def words : List String := ["inf", "infinity", "nan"]

theorem toLower_of_isDigit {c : Char} (h : c.isDigit = true) : c.toLower = c := by
  have hcode := toNat_of_isDigit h
  refine dif_neg fun hletter => ?_
  have hle : 65 ≤ c.toNat := UInt32.le_iff_toNat_le.1 hletter.1
  omega

/-- No literal has a letter of such a word. -/
theorem ofChars?_word {word : String} (hword : word ∈ words) {s : Option Bool}
    (h : cs.map Char.toLower = signChars s ++ word.toList) : ofChars? cs = none := by
  have hletter : 'n' ∈ cs.map Char.toLower := by
    have hmem : ∀ word ∈ words, 'n' ∈ word.toList := by decide
    rw [h]
    exact List.mem_append_right _ (hmem word hword)
  obtain ⟨c, hc, hlower⟩ := List.mem_map.1 hletter
  cases hread : ofChars? cs with
  | none => rfl
  | some x =>
    obtain ⟨l, rfl, -⟩ := ofChars?_eq_some_iff.1 hread
    rcases Literal.mem_chars hc with hdigit | hmark
    · rw [toLower_of_isDigit hdigit] at hlower
      exact absurd hdigit (by rw [hlower]; decide)
    · have hmarks : ∀ c ∈ ['-', '+', '.', 'e', 'E'], c.toLower ≠ 'n' := by simp
      exact absurd hlower (hmarks c hmark)

/-- A text is a number exactly if it is a literal that rounds to a finite double, and that double is the number. -/
theorem ofText?_reads_literals (text : String) :
    (∀ x, ofText? text = some x ↔
      ∃ l : Literal, l.chars = text.toList ∧ isFinite x = true ∧ l.counted.RoundsTo x) ∧
    ((∀ l : Literal, l.chars = text.toList → l.Counted) → ∀ x, ofText? text = some x ↔
      ∃ l : Literal, l.chars = text.toList ∧ isFinite x = true ∧ l.decimal.RoundsTo x) ∧
    ∀ word ∈ words, ∀ s, text.toList.map Char.toLower = signChars s ++ word.toList → ofText? text = none := by
  refine ⟨fun x => ?_, fun hcounted x => ?_, fun word hword s h => ofChars?_word hword h⟩
  · simp only [ofText?, ofChars?_eq_some_iff, toFloat_eq_iff]
  · simp only [ofText?, ofChars?_eq_some_iff, ← toFloat_eq_iff]
    constructor
    · rintro ⟨l, hchars, hx, rfl⟩
      exact ⟨l, hchars, hx, (Literal.toFloat_counted (hcounted l hchars)).symm⟩
    · rintro ⟨l, hchars, hx, rfl⟩
      exact ⟨l, hchars, hx, Literal.toFloat_counted (hcounted l hchars)⟩

/-- `-.5e+3` is minus five hundred. -/
theorem ofText?_reads_literals_signed :
    ofText? "-.5e+3" = some (ofMagnitude true 0x407f400000000000) := by
  let l : Literal := ⟨some true, [], some ['5'], some ⟨'e', some false, ['3'], .inl rfl, by simp, by simp⟩, by simp,
    by simp, .inr (by simp)⟩
  have hchars : l.chars = "-.5e+3".toList := rfl
  have hcounted : ∀ k : Literal, k.chars = "-.5e+3".toList → k.Counted := by
    intro k hk
    obtain rfl : k = l := Literal.chars_injective (hk.trans hchars.symm)
    exact .inr (by decide)
  have hmagnitude : l.decimal.magnitude = 0x407f400000000000 := by decide +kernel
  refine ((ofText?_reads_literals "-.5e+3").2.1 hcounted _).2 ⟨l, hchars, ?_, toFloat_eq_iff.1 ?_⟩
  · rw [isFinite_ofMagnitude (by decide)]
    decide
  · rw [toFloat, hmagnitude]
    rfl

/-- A one behind the point and `k` zeros, with a power of ten. -/
def farDown (k : Nat) (p : Power) : Literal where
  negative := none
  whole := []
  fraction := some (List.replicate k '0' ++ ['1'])
  power := some p
  isDigit_whole := by simp
  isDigit_fraction := by
    rintro ds ⟨rfl⟩ c hc
    rcases List.mem_append.1 hc with hc | hc
    · rw [List.eq_of_mem_replicate hc]
      rfl
    · rw [List.mem_singleton.1 hc]
      rfl
  hasDigit := .inr (by simp)

theorem chars_farDown (k : Nat) (p : Power) :
    (farDown k p).chars = '.' :: (List.replicate k '0' ++ '1' :: p.chars) := by
  simp [farDown, Literal.chars, signChars]

theorem decimalWith_farDown (k : Nat) (p : Power) (count : List Char → Nat) :
    (farDown k p).decimalWith count = ⟨false, 1, p.signed (count p.digits) - (k + 1)⟩ := by
  have hcoefficient : natOfDigits (List.replicate k '0' ++ ['1']) = 1 := natOfDigits_zeros_append k ['1']
  simp [farDown, Literal.decimalWith, Literal.places, hcoefficient]

/-- The digits `655360` are counted as `65536`, so a one that many places behind the point is taken for `1`; but it
is `10 ^ 589824`, far more than a double. -/
theorem ofText?_uncounted :
    let text := String.ofList ('.' :: (List.replicate 65535 '0' ++ "1e655360".toList))
    ofText? text = some (ofMagnitude false 0x3ff0000000000000) ∧
      ∀ (l : Literal) x, l.chars = text.toList → isFinite x = true → ¬l.decimal.RoundsTo x := by
  let p : Power := ⟨'e', none, "655360".toList, .inl rfl, by simp, by simp⟩
  have hchars : (farDown 65535 p).chars =
      (String.ofList ('.' :: (List.replicate 65535 '0' ++ "1e655360".toList))).toList := by
    rw [String.toList_ofList, chars_farDown, show "1e655360".toList = '1' :: p.chars from rfl]
  -- the exponent as it is counted, and as it is written
  have hlow : p.signed (exponentOfDigits p.digits) = 65536 := by decide +kernel
  have hhigh : p.signed (natOfDigits p.digits) = 655360 := by decide +kernel
  have hcounted : (farDown 65535 p).counted = ⟨false, 1, 0⟩ := by
    rw [Literal.counted, decimalWith_farDown, hlow]
    norm_num
  have hdecimal : (farDown 65535 p).decimal = ⟨false, 1, 589824⟩ := by
    rw [Literal.decimal, decimalWith_farDown, hhigh]
    norm_num
  constructor
  · have hone : magnitude ⟨false, 1, 0⟩ = 0x3ff0000000000000 := by decide +kernel
    refine ofChars?_eq_some_iff.2 ⟨farDown 65535 p, hchars, ?_, ?_⟩
    · rw [isFinite_ofMagnitude (by decide)]
      decide
    · rw [hcounted, toFloat, hone]
  -- another literal with this text would be the same one, and its decimal is infinite
  · intro l x hl hx hrounds
    obtain rfl : l = farDown 65535 p := Literal.chars_injective (hl.trans hchars.symm)
    have hinfinite : Decimal.magnitude ⟨false, 1, 589824⟩ = infinity :=
      magnitude_eq_infinity (by decide) (by decide)
    rw [← toFloat_eq_iff.2 hrounds, hdecimal, toFloat, hinfinite, isFinite_ofMagnitude (le_refl _)] at hx
    exact absurd hx (by decide)

end Number

end FormulaBar
