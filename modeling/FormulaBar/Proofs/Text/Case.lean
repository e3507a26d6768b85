import FormulaBar.Text.Case
import Mathlib.Data.List.Infix

/-!
# FormulaBar.Proofs.Text.Case — the lower case of a piece of a text

Every character but one has a lower case of its own. A capital sigma becomes the final sigma where it ends a word, so a
piece of a text can have another lower case inside the text than by itself. This concerns a sigma that is separated from
an end of the piece by nothing that counts. A piece without such a sigma is `settled`: its lower case is the same in
every text (`lowerWithin_of_settled`). If a piece is not settled, one letter behind it or in front of it is enough to
change the sigma, and the lower case of the piece is not in that of the longer text any more (`not_infix_of_unsettled`).
-/

namespace FormulaBar.Text

theorem contains_iff {whole part : List Char} : contains whole part = true ↔ part <:+: whole := by
  induction whole with
  | nil => rw [contains, List.isEmpty_iff, List.infix_nil]
  | cons c rest ih => rw [contains, Bool.or_eq_true, List.isPrefixOf_iff_prefix, ih, List.infix_cons_iff]

/-! ### A piece between two texts -/

/-- Whether the first character that counts has letter case; nothing when all are passed over. -/
def firstCased? (cs : List Char) : Option Bool := (cs.dropWhile isCaseIgnorable).head?.map isCased

theorem startsCased_append (cs ds : List Char) : startsCased (cs ++ ds) = (firstCased? cs).getD (startsCased ds) := by
  induction cs with
  | nil => rfl
  | cons c cs ih =>
    by_cases hc : isCaseIgnorable c = true
    · rw [firstCased?, List.dropWhile_cons_of_pos hc, ← firstCased?, ← ih, startsCased, List.cons_append,
        List.dropWhile_cons_of_pos hc, ← startsCased]
    · rw [firstCased?, List.dropWhile_cons_of_neg hc, startsCased, List.cons_append, List.dropWhile_cons_of_neg hc]
      rfl

theorem startsCased_eq (cs : List Char) : startsCased cs = (firstCased? cs).getD false := by
  have happend := startsCased_append cs []
  rwa [List.append_nil] at happend

/-- The lower case of a capital sigma, given whether letters stand before it and after it. -/
def sigmaForm (before after : Bool) : Char := if before && !after then 'ς' else 'σ'

/-- The lower case of a character between two texts, of which `before` stands nearest first. -/
def lowerBetween (before : List Char) (c : Char) (after : List Char) : List Char :=
  if c = 'Σ' then [sigmaForm (startsCased before) (startsCased after)]
  else if c = 'İ' then ['i', '\u0307']
  else [lowerChar c]

theorem lowerBetween_sigma (before after : List Char) :
    lowerBetween before 'Σ' after = [sigmaForm (startsCased before) (startsCased after)] := if_pos rfl

theorem lowerBetween_of_ne {c : Char} (h : c ≠ 'Σ') (before after before' after' : List Char) :
    lowerBetween before c after = lowerBetween before' c after' := by
  rw [lowerBetween, if_neg h, lowerBetween, if_neg h]

/-- The lower case of a piece between two texts, of which `before` stands nearest first. -/
def lowerWithin (before after : List Char) : List Char → List Char
  | [] => []
  | c :: cs => lowerBetween before c (cs ++ after) ++ lowerWithin (c :: before) after cs

theorem lowerAfter_cons (before : List Char) (c : Char) (cs : List Char) :
    lowerAfter before (c :: cs) = lowerBetween before c cs ++ lowerAfter (c :: before) cs := rfl

theorem lowerAfter_append (before cs after : List Char) :
    lowerAfter before (cs ++ after) = lowerWithin before after cs ++ lowerAfter (cs.reverse ++ before) after := by
  induction cs generalizing before with
  | nil => rfl
  | cons c cs ih =>
    rw [List.cons_append, lowerAfter_cons, ih, lowerWithin, List.append_assoc, List.reverse_cons, List.append_assoc]
    rfl

/-- The lower case of a text has the lower case of each of its pieces in it, as it is within the text. -/
theorem lowerWithin_infix (left cs right : List Char) :
    lowerWithin left.reverse right cs <:+: lower (left ++ cs ++ right) := by
  rw [lower, List.append_assoc, lowerAfter_append, lowerAfter_append, List.append_nil]
  exact ⟨_, _, List.append_assoc _ _ _⟩

theorem lower_eq_nil_iff {cs : List Char} : lower cs = [] ↔ cs = [] := by
  cases cs with
  | nil => simp [lower, lowerAfter]
  | cons c cs =>
    have hne : lowerBetween [] c cs ≠ [] := by
      unfold lowerBetween
      split
      · simp
      · split <;> simp
    simp [lower, lowerAfter_cons, hne]

/-! ### Sigmas that depend on what stands around the text -/

/-- In a text behind `before`, some capital sigma has `p` of what counts first before it and after it. -/
def someSigma (p : Option Bool → Option Bool → Bool) (before : List Char) : List Char → Bool
  | [] => false
  | c :: cs => (c = 'Σ' && p (firstCased? before) (firstCased? cs)) || someSigma p (c :: before) cs

/-- The sigma ends a word unless a letter follows the text. -/
def opensRight (before after : Option Bool) : Bool := before = some true && after = none

/-- The sigma ends a word only if a letter stands in front of the text. -/
def opensLeft (before after : Option Bool) : Bool := before = none && after ≠ some true

/-- Whether a sigma in the text ends a word is settled by the text alone. -/
def settled (cs : List Char) : Bool := !(someSigma opensRight [] cs || someSigma opensLeft [] cs)

/-- What stands around a text does not change the lower case of a settled one. -/
theorem lowerWithin_of_settled {before cs : List Char}
    (h : (someSigma opensRight before cs || someSigma opensLeft before cs) = false) (left right : List Char) :
    lowerWithin (before ++ left) right cs = lowerAfter before cs := by
  induction cs generalizing before with
  | nil => rfl
  | cons c cs ih =>
    simp only [someSigma, Bool.or_eq_false_iff, Bool.and_eq_false_imp, decide_eq_true_eq] at h
    obtain ⟨⟨hright, hrights⟩, hleft, hlefts⟩ := h
    have hcs : lowerWithin (c :: (before ++ left)) right cs = lowerAfter (c :: before) cs :=
      ih (by rw [hrights, hlefts]; rfl)
    rw [lowerWithin, lowerAfter_cons, hcs]
    congr 1
    by_cases hc : c = 'Σ'
    · have hright := hright hc
      have hleft := hleft hc
      rw [hc, lowerBetween_sigma, lowerBetween_sigma, startsCased_append, startsCased_append, startsCased_eq before,
        startsCased_eq cs]
      generalize firstCased? before = b at hright hleft ⊢
      generalize firstCased? cs = a at hright hleft ⊢
      rcases b with - | _ | _ <;> rcases a with - | _ | _ <;> simp_all [opensRight, opensLeft, sigmaForm]
    · exact lowerBetween_of_ne hc _ _ _ _

/-- If other neighbours take a form from the sigmas with `p` and give it to none, the text has the less of it. -/
theorem count_lowerWithin_le (p : Option Bool → Option Bool → Bool) (form : Char) (left right : List Char)
    (h : ∀ before after : Option Bool,
      [sigmaForm (before.getD (startsCased left)) (after.getD (startsCased right))].count form +
        (p before after).toNat ≤ [sigmaForm (before.getD false) (after.getD false)].count form)
    (before cs : List Char) :
    (lowerWithin (before ++ left) right cs).count form + (someSigma p before cs).toNat ≤
      (lowerAfter before cs).count form := by
  induction cs generalizing before with
  | nil => exact Nat.le_refl _
  | cons c cs ih =>
    have hhead : (lowerBetween (before ++ left) c (cs ++ right)).count form +
        (decide (c = 'Σ') && p (firstCased? before) (firstCased? cs)).toNat ≤
          (lowerBetween before c cs).count form := by
      by_cases hc : c = 'Σ'
      · rw [hc, lowerBetween_sigma, lowerBetween_sigma, startsCased_append, startsCased_append, startsCased_eq before,
          startsCased_eq cs]
        simpa using h (firstCased? before) (firstCased? cs)
      · rw [lowerBetween_of_ne hc (before ++ left) (cs ++ right) before cs]
        simp [hc]
    have hrest := ih (c :: before)
    rw [List.cons_append] at hrest
    have hor : ∀ a b : Bool, (a || b).toNat ≤ a.toNat + b.toNat := by decide
    have hsum := hor (decide (c = 'Σ') && p (firstCased? before) (firstCased? cs)) (someSigma p (c :: before) cs)
    rw [lowerWithin, lowerAfter_cons, List.count_append, List.count_append, someSigma]
    omega

/-- One letter behind an unsettled text or in front of it changes the lower case of the text. -/
theorem not_infix_of_unsettled {cs : List Char} (h : settled cs = false) :
    (¬lower cs <:+: lower (cs ++ ['a'])) ∨ ¬lower cs <:+: lower ('a' :: cs) := by
  have hcased : startsCased ['a'] = true := by decide +kernel
  have ha : lowerChar 'a' = 'a' := by decide
  rw [settled, Bool.not_eq_false', Bool.or_eq_true] at h
  rcases h with hright | hleft
  · refine .inl fun hinfix => ?_
    have hfewer := count_lowerWithin_le opensRight 'ς' [] ['a']
      (by rw [hcased]; rintro (- | _ | _) (- | _ | _) <;> decide) [] cs
    have hall := hinfix.sublist.count_le 'ς'
    have hlast : (lowerAfter (cs.reverse ++ []) ['a']).count 'ς' = 0 := by simp [lowerAfter, ha]
    rw [hright, Bool.toNat_true, List.nil_append, ← lower] at hfewer
    rw [lower, lower, lowerAfter_append, List.count_append, hlast, ← lower] at hall
    omega
  · refine .inr fun hinfix => ?_
    have hfewer := count_lowerWithin_le opensLeft 'σ' ['a'] []
      (by rw [hcased]; rintro (- | _ | _) (- | _ | _) <;> decide) [] cs
    have hall := hinfix.sublist.count_le 'σ'
    have hfirst : (lowerBetween [] 'a' cs).count 'σ' = 0 := by simp [lowerBetween, ha]
    have hwithin : lowerAfter ['a'] cs = lowerWithin ['a'] [] cs := by
      have happend := lowerAfter_append ['a'] cs []
      rwa [List.append_nil, lowerAfter, List.append_nil] at happend
    rw [hleft, Bool.toNat_true, List.nil_append, ← lower] at hfewer
    rw [lower, lower, lowerAfter_cons, List.count_append, hfirst, hwithin, ← lower] at hall
    omega

/-- A settled text has its lower case in that of every text that it is a piece of. -/
theorem lower_infix_of_settled {part whole : List Char} (h : settled part = true) (hpart : part <:+: whole) :
    lower part <:+: lower whole := by
  obtain ⟨left, right, rfl⟩ := hpart
  rw [settled, Bool.not_eq_true'] at h
  have hwithin := lowerWithin_of_settled h left.reverse right
  rw [List.nil_append] at hwithin
  rw [lower, ← hwithin]
  exact lowerWithin_infix left part right

end FormulaBar.Text
