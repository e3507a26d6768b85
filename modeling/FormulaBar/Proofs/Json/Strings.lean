import FormulaBar.Json.Printer

/-!
# FormulaBar.Proofs.Json.Strings — strings read back

Each character of a string is written as itself, as a letter behind a backslash, or as a code unit in hexadecimal, and
is read as just that (`readString_escapeChar`). No character needs a pair of surrogates, so the units that are read are
the string again (`stringOfUnits?_unitsOf`), whatever characters it holds.
-/

namespace FormulaBar.Json

/-- The characters that a letter behind a backslash is written for. -/
def hasLetter (c : Char) : Bool := c = '\x08' || c = '\x0c' || c = '\n' || c = '\r' || c = '\t'

/-- What a character of a string is read as: those that have no letter and stand below the space as a code unit. -/
def unitOf (c : Char) : StringUnit := if c.toNat < 0x20 && !hasLetter c then .code c.toNat else .char c

/-- What a string is read as. -/
def unitsOf (s : String) : List StringUnit := s.toList.map unitOf

/-! ### Reading characters -/

theorem natOfHex?_byte {n : Nat} (h : n < 0x20) :
    Text.natOfHex? 16 ['0', '0', Nat.digitChar (n / 16), Nat.digitChar (n % 16)] = some n := by
  have hzero : Text.hexDigit? '0' = some 0 := by decide
  have hhigh := Text.hexDigit?_digitChar (n := n / 16) (by omega)
  have hlow := Text.hexDigit?_digitChar (n := n % 16) (by omega)
  have hvalue : 16 * (n / 16) + n % 16 = n := Nat.div_add_mod n 16
  simp [Text.natOfHex?, hzero, hhigh, hlow, hvalue]

theorem readString_code {unit : Nat} {a b c d : Char} (h : Text.natOfHex? 16 [a, b, c, d] = some unit)
    (cs : List Char) : readString ('\\' :: 'u' :: a :: b :: c :: d :: cs) =
      (readString cs).map fun p => (.code unit :: p.1, p.2) := by
  rw [readString, h]
  cases readString cs <;> rfl

theorem readString_letter {letter c : Char} (hletter : letter ≠ 'u') (h : escaped? letter = some c) (cs : List Char) :
    readString ('\\' :: letter :: cs) = (readString cs).map fun p => (.char c :: p.1, p.2) := by
  rw [readString, h]
  · cases readString cs <;> rfl
  · intro _ _ _ _ _ hu
    exact absurd hu hletter

theorem readString_plain {c : Char} (hquote : c ≠ '\x22') (hslash : c ≠ '\\') (hspace : ¬c.toNat < 0x20)
    (cs : List Char) : readString (c :: cs) = (readString cs).map fun p => (.char c :: p.1, p.2) := by
  rw [readString]
  · simp [hslash, hspace]
  · exact hquote
  · intro _ _ _ _ _ h
    exact absurd h hslash
  · intro _ _ h
    exact absurd h hslash

theorem readString_escapeChar (c : Char) (cs : List Char) :
    readString (escapeChar c ++ cs) = (readString cs).map fun p => (unitOf c :: p.1, p.2) := by
  -- in the order in which the writer asks: the two marks, the letters, the codes, and the character itself
  by_cases hquote : c = '\x22'
  · subst hquote
    exact readString_letter (by decide) rfl cs
  by_cases hslash : c = '\\'
  · subst hslash
    exact readString_letter (by decide) rfl cs
  by_cases hletter : hasLetter c = true
  · simp only [hasLetter, Bool.or_eq_true, decide_eq_true_eq, or_assoc] at hletter
    rcases hletter with rfl | rfl | rfl | rfl | rfl <;> exact readString_letter (by decide) rfl cs
  -- neither a mark nor a letter is left
  have hother : escapeChar c = if c.toNat < 0x20 then
      ['\\', 'u', '0', '0', Nat.digitChar (c.toNat / 16), Nat.digitChar (c.toNat % 16)] else [c] := by
    simp only [hasLetter, Bool.or_eq_true, decide_eq_true_eq, not_or] at hletter
    simp [escapeChar, hquote, hslash, hletter]
  by_cases hspace : c.toNat < 0x20
  · rw [hother, if_pos hspace, show unitOf c = .code c.toNat by simp [unitOf, hspace, hletter]]
    exact readString_code (natOfHex?_byte hspace) cs
  · rw [hother, if_neg hspace, show unitOf c = .char c by simp [unitOf, hspace]]
    exact readString_plain hquote hslash hspace cs

/-- A string is read up to its closing quote. -/
theorem readString_escaped (chars rest : List Char) :
    readString (chars.flatMap escapeChar ++ '\x22' :: rest) = some (chars.map unitOf, rest) := by
  induction chars with
  | nil => rw [List.flatMap_nil, List.nil_append, readString, List.map_nil]
  | cons c chars ih =>
    rw [List.flatMap_cons, List.append_assoc, readString_escapeChar, ih]
    rfl

/-! ### The characters that were read -/

theorem charsOfUnits?_code {unit : Nat} (h : unit < 0x20) (us : List StringUnit) :
    charsOfUnits? (.code unit :: us) = (charsOfUnits? us).map (Char.ofNat unit :: ·) := by
  have hhigh : isHighSurrogate unit = false := by simp [isHighSurrogate]; omega
  have hlow : isLowSurrogate unit = false := by simp [isLowSurrogate]; omega
  cases us with
  | nil => simp [charsOfUnits?, hhigh, hlow]
  | cons u us => cases u <;> simp [charsOfUnits?, hhigh, hlow]

theorem charsOfUnits?_unitOf (c : Char) (us : List StringUnit) :
    charsOfUnits? (unitOf c :: us) = (charsOfUnits? us).map (c :: ·) := by
  by_cases hcode : (c.toNat < 0x20 && !hasLetter c) = true
  · have hspace : c.toNat < 0x20 := of_decide_eq_true (Bool.and_eq_true_iff.1 hcode).1
    rw [unitOf, if_pos hcode, charsOfUnits?_code hspace, Char.ofNat_toNat]
  · rw [unitOf, if_neg hcode, charsOfUnits?]

theorem stringOfUnits?_unitsOf (s : String) : stringOfUnits? (unitsOf s) = some s := by
  have hchars (chars : List Char) : charsOfUnits? (chars.map unitOf) = some chars := by
    induction chars with
    | nil => rfl
    | cons c chars ih => rw [List.map_cons, charsOfUnits?_unitOf, ih, Option.map_some]
  rw [stringOfUnits?, unitsOf, hchars, Option.map_some, String.ofList_toList]

end FormulaBar.Json
