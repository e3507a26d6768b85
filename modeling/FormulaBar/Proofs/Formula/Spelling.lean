import FormulaBar.Proofs.Expr.Limit
import FormulaBar.Proofs.Formula.Source
import FormulaBar.Proofs.Number.Sign

/-!
# FormulaBar.Proofs.Formula.Spelling — rows whose numbers are written with their sign

A number below zero is one lexeme of a row, and two in text: a minus sign and its absolute value. `spellRow` writes a
row out in this way and `Expr.spelled` the tree. A minus sign means less than a sign of the number itself: it is a
difference behind an operand, and it binds looser than a power. Where neither happens (`SignsFree`), reading the text
is reading the row (`matches_read`): the tree is the same but for the spelling, and an error stands at the same lexeme.
-/

namespace FormulaBar

open Binary64

/-- Below zero, for doubles that are not NaN. -/
def IsBelowZero (v : Float) : Prop := isNegative v = true ∧ magnitude v ≠ 0

instance : DecidablePred IsBelowZero := fun v => inferInstanceAs (Decidable (isNegative v = true ∧ magnitude v ≠ 0))

deriving instance DecidableEq for Lexeme

namespace Lexeme

/-- A number below zero. -/
def IsBelowZero : Lexeme → Prop
  | number v => FormulaBar.IsBelowZero v
  | _ => False

/-- An operand ends with this lexeme. -/
def EndsOperand : Lexeme → Prop
  | number _ | rightParen => True
  | _ => False

/-- The lexeme without its sign. -/
def unsigned : Lexeme → Lexeme
  | number v => number (Formula.absolute v)
  | t => t

/-- The lexeme as it is written. -/
def spelled : Lexeme → List Lexeme
  | number v => Formula.numberLexemes v
  | t => [t]

instance : DecidablePred IsBelowZero
  | number v => inferInstanceAs (Decidable (FormulaBar.IsBelowZero v))
  | plus | minus | star | slash | caret | leftParen | rightParen => inferInstanceAs (Decidable False)

instance : DecidablePred EndsOperand
  | number _ | rightParen => inferInstanceAs (Decidable True)
  | plus | minus | star | slash | caret | leftParen => inferInstanceAs (Decidable False)

theorem spelled_of_not_belowZero {t : Lexeme} (h : ¬t.IsBelowZero) : t.spelled = [t.unsigned] := by
  cases t with
  | number v => exact if_neg h
  | _ => rfl

theorem spelled_of_belowZero {v : Float} (h : FormulaBar.IsBelowZero v) :
    (number v).spelled = [.minus, .number (Formula.absolute v)] := if_pos h

end Lexeme

/-- A row as it is written. -/
def spellRow (ts : List Lexeme) : List Lexeme := ts.flatMap Lexeme.spelled

/-- The row does not start with a number below zero. -/
def Clear (ts : List Lexeme) : Prop := ∀ t ∈ ts.head?, ¬t.IsBelowZero

/-- No number below zero stands behind an operand or is raised to a power. -/
def SignsFree (ts : List Lexeme) : Prop :=
  ts.IsChain fun t u => (u.IsBelowZero → ¬t.EndsOperand) ∧ (t.IsBelowZero → u ≠ .caret)

instance : DecidablePred SignsFree := fun ts => by unfold SignsFree; infer_instance

namespace Expr

/-- The expression as it is written. -/
def spelled : Expr → Expr
  | number v => if IsBelowZero v then neg (number (Formula.absolute v)) else number (Formula.absolute v)
  | neg operand => neg operand.spelled
  | binary op left right => binary op left.spelled right.spelled

end Expr

variable {t : Lexeme} {ts us : List Lexeme}

theorem spellRow_cons (h : Clear (t :: ts)) : spellRow (t :: ts) = t.unsigned :: spellRow ts := by
  rw [spellRow, List.flatMap_cons, Lexeme.spelled_of_not_belowZero (h t rfl)]
  rfl

theorem spellRow_symbol (h : t.value? = none) : spellRow (t :: ts) = t :: spellRow ts := by
  cases t with
  | number v => cases h
  | _ => rfl

theorem spellRow_cons_belowZero {v : Float} (h : IsBelowZero v) :
    spellRow (.number v :: ts) = .minus :: .number (Formula.absolute v) :: spellRow ts := by
  rw [spellRow, List.flatMap_cons, Lexeme.spelled_of_belowZero h]
  rfl

theorem spellRow_ne_nil (h : ts ≠ []) : spellRow ts ≠ [] := by
  obtain ⟨t, us, rfl⟩ := List.exists_cons_of_ne_nil h
  by_cases ht : t.IsBelowZero
  · cases t with
    | number v => simp [spellRow_cons_belowZero ht]
    | _ => exact ht.elim
  · simp [spellRow, Lexeme.spelled_of_not_belowZero ht]

theorem length_spellRow_of_suffix (h : us <:+ ts) :
    (spellRow ts).length - (spellRow us).length = (spellRow (ts.take (ts.length - us.length))).length := by
  obtain ⟨front, rfl⟩ := h
  simp [spellRow]

theorem SignsFree.of_suffix (h : SignsFree ts) (hus : us <:+ ts) : SignsFree us := List.IsChain.suffix h hus

theorem SignsFree.tail (h : SignsFree (t :: ts)) : SignsFree ts := h.of_suffix (List.suffix_cons t ts)

/-- Behind an operand no number below zero follows. -/
theorem SignsFree.clear (h : SignsFree (t :: ts)) (ht : t.EndsOperand) : Clear ts := by
  intro u hu hbelow
  cases ts with
  | nil => cases hu
  | cons v vs =>
    cases hu
    exact (List.isChain_cons_cons.1 h).1.1 hbelow ht

/-- A number below zero is not raised to a power. -/
theorem SignsFree.not_raised {v : Float} (h : SignsFree (.number v :: ts)) (hv : IsBelowZero v) :
    ∀ us, ts ≠ .caret :: us := by
  rintro us rfl
  exact (List.isChain_cons_cons.1 h).1.2 hv rfl

/-- Written out, a row starts with `^` only if it did before. -/
theorem spellRow_not_raised (hts : ∀ us, ts ≠ .caret :: us) : ∀ us, spellRow ts ≠ .caret :: us := by
  intro us
  cases ts with
  | nil => simp [spellRow]
  | cons t ts =>
    by_cases ht : t.IsBelowZero
    · cases t with
      | number v => simp [spellRow_cons_belowZero ht]
      | _ => exact ht.elim
    · rw [spellRow, List.flatMap_cons, Lexeme.spelled_of_not_belowZero ht]
      cases t with
      | caret => exact absurd rfl (hts ts)
      | _ => simp [Lexeme.unsigned]

namespace Parser

/-- The second reading is the first one written out: with what it leaves of `ts`, or the place of its error there. What
follows an expression that was read does not start with a number below zero. -/
inductive Matches (ts : List Lexeme) : Reading → Reading → Prop
  | read (e : Expr) {rest : List Lexeme} (hrest : rest <:+ ts) (hclear : Clear rest) :
      Matches ts (.ok (e, rest)) (.ok (e.spelled, spellRow rest))
  | unexpectedEnd : Matches ts (.error .unexpectedEnd) (.error .unexpectedEnd)
  | missingClosingParen : Matches ts (.error .missingClosingParen) (.error .missingClosingParen)
  | unexpectedToken {rest : List Lexeme} (hrest : rest <:+ ts) :
      Matches ts (.error (.unexpectedToken rest.length)) (.error (.unexpectedToken (spellRow rest).length))

variable {x y : Reading} {f g : Expr × List Lexeme → Reading} {φ : Expr → Expr}

theorem Matches.mono (h : Matches us x y) (hus : us <:+ ts) : Matches ts x y := by
  cases h with
  | read e hrest hclear => exact .read e (hrest.trans hus) hclear
  | unexpectedEnd => exact .unexpectedEnd
  | missingClosingParen => exact .missingClosingParen
  | unexpectedToken hrest => exact .unexpectedToken (hrest.trans hus)

theorem Matches.bind (h : Matches ts x y)
    (hfg : ∀ e rest, x = .ok (e, rest) → rest <:+ ts → Clear rest →
      Matches rest (f (e, rest)) (g (e.spelled, spellRow rest))) :
    Matches ts (x.bind f) (y.bind g) := by
  cases h with
  | read e hrest hclear => exact (hfg e _ rfl hrest hclear).mono hrest
  | unexpectedEnd => exact .unexpectedEnd
  | missingClosingParen => exact .missingClosingParen
  | unexpectedToken hrest => exact .unexpectedToken hrest

theorem Matches.map (h : Matches ts x y) {ψ : Expr → Expr} (hφ : ∀ e, (φ e).spelled = ψ e.spelled) :
    Matches ts (x.map fun p => (φ p.1, p.2)) (y.map fun p => (ψ p.1, p.2)) := by
  cases h with
  | read e hrest hclear =>
    simp only [Except.map, ← hφ]
    exact .read (φ e) hrest hclear
  | unexpectedEnd => exact .unexpectedEnd
  | missingClosingParen => exact .missingClosingParen
  | unexpectedToken hrest => exact .unexpectedToken hrest

theorem joins_unsigned (k : Phrase) (t : Lexeme) : k.joins t.unsigned = k.joins t := by
  cases t with
  | number v => cases k <;> rfl
  | _ => rfl

/-- Only sums and products join parts, and their parts may start with a sign. -/
theorem part_of_joins {k : Phrase} {op : BinaryOp} (h : k.joins t = some op) : k.part ≠ .power ∧ k.part ≠ .atom := by
  cases k with
  | sum => simp [Phrase.part]
  | product => simp [Phrase.part]
  | signed | power | atom => cases h

variable {d : Nat}

theorem matches_closing (e : Expr) (hfree : SignsFree ts) (hclear : Clear ts) :
    Matches ts (readClosing e ts) (readClosing e.spelled (spellRow ts)) := by
  cases ts with
  | nil => exact .missingClosingParen
  | cons t us =>
    have hsame := Matches.unexpectedToken (List.suffix_refl (t :: us))
    rw [spellRow_cons hclear] at hsame ⊢
    cases t with
    | rightParen => exact .read e (List.suffix_cons _ _) (hfree.clear trivial)
    | _ => exact hsame

/-- A number below zero is read with a minus sign in front. -/
theorem matches_belowZero {v : Float} (hv : IsBelowZero v) (hfree : SignsFree (.number v :: ts)) :
    Matches (.number v :: ts) (read none .signed d (.number v :: ts))
      (read none .signed d (spellRow (.number v :: ts))) := by
  have hraised := hfree.not_raised hv
  have hpower (w : Float) {us : List Lexeme} (hus : ∀ vs, us ≠ .caret :: vs) (d : Nat) :
      read none .signed d (.number w :: us) = .ok (.number w, us) := by
    rw [read_signed_of_unsigned rfl (by simp) (by simp), read_power, read_atom_number]
    exact readExponent_of_ne _ hus
  rw [spellRow_cons_belowZero hv, read_signed_minus rfl, hpower v hraised, hpower _ (spellRow_not_raised hraised)]
  have hspelled : (Expr.number v).spelled = .neg (.number (Formula.absolute v)) := if_pos hv
  simp only [Except.map, ← hspelled]
  exact .read (.number v) (List.suffix_cons _ _) (hfree.clear trivial)

/-! ### The readers

Signs are free in all that a reader is given. Those that look for no sign find no number below zero at the front. -/

/-- Reading a phrase off the text of `ts` is reading it off `ts`. -/
def Spells (k : Phrase) (d : Nat) (ts : List Lexeme) : Prop :=
  SignsFree ts → (k = .power ∨ k = .atom → Clear ts) → Matches ts (read none k d ts) (read none k d (spellRow ts))

/-- Continuing a phrase over the text of `ts` is continuing it over `ts`. -/
def SpellsMore (k : Phrase) (d : Nat) (ts : List Lexeme) : Prop :=
  SignsFree ts → Clear ts → ∀ left,
    Matches ts (readMore none k d left ts) (readMore none k d left.spelled (spellRow ts))

theorem spellsMore {k : Phrase} (hpart : ∀ us, us.length < ts.length → Spells k.part d us)
    (hmore : ∀ us, us.length < ts.length → SpellsMore k d us) : SpellsMore k d ts := by
  intro hfree hclear left
  cases ts with
  | nil =>
    rw [spellRow, List.flatMap_nil, readMore_nil, readMore_nil]
    exact .read left List.suffix_rfl hclear
  | cons t us =>
    -- `t` joins or not, spelled or unspelled: only a number is spelled in another way
    have hspell := spellRow_cons hclear
    cases ht : k.joins t with
    | none =>
      rw [readMore_stop ht, hspell, readMore_stop ((joins_unsigned k t).trans ht), ← hspell]
      exact .read left List.suffix_rfl hclear
    | some op =>
      rw [readMore_step ht, hspell, readMore_step ((joins_unsigned k t).trans ht)]
      refine Matches.mono ?_ (List.suffix_cons t us)
      refine (hpart us (Nat.lt_succ_self _) hfree.tail fun h => ?_).bind fun e rest hread hrest hclear' => ?_
      · simp [part_of_joins ht] at h
      · exact hmore rest (Nat.lt_succ_of_lt (read_shorter hread)) (hfree.tail.of_suffix hrest) hclear'
          (.binary op left e)

theorem spells_atom (hsum : ∀ us, us.length < ts.length → Spells .sum (d + 1) us) : Spells .atom d ts := by
  intro hfree hclear
  cases ts with
  | nil =>
    rw [spellRow, List.flatMap_nil, read_atom_nil]
    exact .unexpectedEnd
  | cons t us =>
    have hsame := Matches.unexpectedToken (List.suffix_refl (t :: us))
    cases t with
    | number v =>
      -- a number below zero would begin with a sign, which is not free here
      have hspelled : (Expr.number v).spelled = .number (Formula.absolute v) := if_neg (hclear (.inr rfl) _ rfl)
      rw [spellRow_cons (hclear (.inr rfl)), Lexeme.unsigned, read_atom_number, read_atom_number, ← hspelled]
      exact .read (.number v) (List.suffix_cons _ _) (hfree.clear trivial)
    | leftParen =>
      rw [spellRow_symbol rfl, read_atom_group, read_atom_group]
      refine Matches.mono ?_ (List.suffix_cons _ us)
      refine (hsum us (Nat.lt_succ_self _) hfree.tail (by simp)).bind fun e rest _ hrest hclear' => ?_
      exact matches_closing e (hfree.tail.of_suffix hrest) hclear'
    | _ =>
      rw [spellRow_symbol rfl] at hsame ⊢
      rw [read_atom_of_other (by simp) (by simp), read_atom_of_other (by simp) (by simp)]
      exact hsame

theorem spells_power (hatom : Spells .atom d ts) (hsigned : ∀ us, us.length < ts.length → Spells .signed (d + 1) us) :
    Spells .power d ts := by
  intro hfree hclear
  rw [read_power, read_power]
  refine (hatom hfree fun _ => hclear (.inl rfl)).bind fun base rest hread hrest hclear' => ?_
  have hshort := read_shorter hread
  have hfree' := hfree.of_suffix hrest
  by_cases hcaret : ∃ us, rest = .caret :: us
  · obtain ⟨us, rfl⟩ := hcaret
    rw [spellRow_symbol rfl]
    have hexponent := hsigned us (Nat.lt_of_succ_lt hshort) hfree'.tail (by simp)
    exact (hexponent.mono (List.suffix_cons _ us)).map fun _ => rfl
  · rw [readExponent_of_ne base (not_exists.1 hcaret),
      readExponent_of_ne _ (spellRow_not_raised (not_exists.1 hcaret))]
    exact .read base List.suffix_rfl hclear'

/-- Written out, a row that starts neither with a sign nor with a number below zero does not start with a sign. -/
theorem spellRow_unsigned (hclear : Clear ts) (hplus : ∀ us, ts ≠ .plus :: us) (hminus : ∀ us, ts ≠ .minus :: us) :
    (∀ us, spellRow ts ≠ .plus :: us) ∧ ∀ us, spellRow ts ≠ .minus :: us := by
  cases ts with
  | nil => simp [spellRow]
  | cons t us =>
    rw [spellRow_cons hclear]
    cases t with
    | plus => exact absurd rfl (hplus us)
    | minus => exact absurd rfl (hminus us)
    | _ => simp [Lexeme.unsigned]

theorem spells_signed (hpower : Spells .power d ts)
    (hsigned : ∀ us, us.length < ts.length → Spells .signed (d + 1) us) : Spells .signed d ts := by
  intro hfree _
  by_cases hclear : Clear ts
  · by_cases hplus : ∃ us, ts = .plus :: us
    · obtain ⟨us, rfl⟩ := hplus
      rw [spellRow_symbol rfl, read_signed_plus rfl, read_signed_plus rfl]
      exact (hsigned us (Nat.lt_succ_self _) hfree.tail (by simp)).mono (List.suffix_cons _ us)
    by_cases hminus : ∃ us, ts = .minus :: us
    · obtain ⟨us, rfl⟩ := hminus
      rw [spellRow_symbol rfl, read_signed_minus rfl, read_signed_minus rfl]
      exact ((hsigned us (Nat.lt_succ_self _) hfree.tail (by simp)).mono (List.suffix_cons _ us)).map fun _ => rfl
    · obtain ⟨hplus', hminus'⟩ := spellRow_unsigned hclear (not_exists.1 hplus) (not_exists.1 hminus)
      rw [read_signed_of_unsigned rfl (not_exists.1 hplus) (not_exists.1 hminus),
        read_signed_of_unsigned rfl hplus' hminus']
      exact hpower hfree fun _ => hclear
  · -- only a number below zero is not clear, and its sign is read here
    cases ts with
    | nil => exact absurd (by simp [Clear]) hclear
    | cons t us =>
      have hbelow : t.IsBelowZero := by simpa [Clear] using hclear
      cases t with
      | number v => exact matches_belowZero hbelow hfree
      | _ => exact hbelow.elim

theorem spells_product (hsigned : Spells .signed d ts)
    (hmore : ∀ us, us.length < ts.length → SpellsMore .product d us) : Spells .product d ts := by
  intro hfree _
  rw [read_product, read_product]
  refine (hsigned hfree (by simp)).bind fun e rest hread hrest hclear => ?_
  exact hmore rest (read_shorter hread) (hfree.of_suffix hrest) hclear e

theorem spells_sum (hproduct : Spells .product d ts) (hmore : ∀ us, us.length < ts.length → SpellsMore .sum d us) :
    Spells .sum d ts := by
  intro hfree _
  rw [read_sum, read_sum]
  refine (hproduct hfree (by simp)).bind fun e rest hread hrest hclear => ?_
  exact hmore rest (read_shorter hread) (hfree.of_suffix hrest) hclear e

/-- Reading the text of a row in which signs are free is reading the row. -/
theorem matches_read (k : Phrase) (d : Nat) (ts : List Lexeme) : Spells k d ts :=
  readers_induct (fun _ _ _ => spellsMore) (fun _ _ => spells_atom) (fun _ _ => spells_power)
    (fun _ _ => spells_signed) (fun _ _ => spells_product) (fun _ _ => spells_sum) k d ts

end Parser

/-- The same error with its place, if it has one, moved. -/
def EvalError.relocated (place : Nat → Nat) : EvalError → EvalError
  | .unexpectedToken position => .unexpectedToken (place position)
  | .trailingInput position => .trailingInput (place position)
  | err => err

/-- Where the lexeme at a position of the row stands in its text. -/
def spelledPosition (ts : List Lexeme) (position : Nat) : Nat := (spellRow (ts.take position)).length

namespace Expr

open FormulaBar.Parser

theorem relocated_leftOver (place : Nat → Nat) (position : Nat) (t : Lexeme) :
    (leftOver position t).relocated place = leftOver (place position) t.unsigned := by
  cases t <;> rfl

/-- The text of a row in which signs are free is the spelled tree of the row, or has its error at the same lexeme. -/
theorem ofLexemes_spellRow (hfree : SignsFree ts) (hlength : ts.length ≤ maxLexemes)
    (hspelled : (spellRow ts).length ≤ maxLexemes) :
    ofLexemes none (spellRow ts) =
      ((ofLexemes none ts).map Expr.spelled).mapError (EvalError.relocated (spelledPosition ts)) := by
  by_cases hne : ts = []
  · subst hne
    rfl
  rw [ofLexemes_eq_read hne hlength, ofLexemes_eq_read (spellRow_ne_nil hne) hspelled]
  -- both rows are read alike; what is left are the outcomes
  have h := matches_read .sum 0 ts hfree (by simp)
  generalize read none .sum 0 ts = x at h
  generalize read none .sum 0 (spellRow ts) = y at h
  cases h with
  | @read e rest hrest hclear =>
    cases rest with
    | nil => rfl
    | cons t us =>
      -- what is left over is spelled in as many lexemes as stand behind the place
      have hplace := length_spellRow_of_suffix hrest
      rw [spellRow_cons hclear] at hplace ⊢
      simp only [Except.map, Except.mapError, relocated_leftOver, spelledPosition, hplace]
  | unexpectedEnd => rfl
  | missingClosingParen => rfl
  | unexpectedToken hrest =>
    simp only [Except.map, Except.mapError, SyntaxError.inRow, EvalError.relocated, spelledPosition,
      length_spellRow_of_suffix hrest]

/-- A tree and its spelling have the same value, unless a number is `-0`, which is written as zero. -/
theorem eval_spelled {e : Expr}
    (h : ∀ v ∈ e.leaves, isFinite v = true ∧ (magnitude v = 0 → isNegative v = false)) :
    e.spelled.eval = e.eval := by
  induction e with
  | number v =>
    obtain ⟨hfinite, hzero⟩ := h v (List.mem_singleton_self v)
    -- the text of such a number is a sign and its absolute value
    by_cases hv : IsBelowZero v
    · have hle : magnitude v ≤ infinity := Nat.le_of_lt (of_decide_eq_true hfinite)
      have habs : isFinite (Formula.absolute v) = true := by
        rw [Formula.absolute, isFinite_ofMagnitude hle]
        exact hfinite
      have hneg : -Formula.absolute v = v := by
        rw [neg_eq habs, Formula.absolute, magnitude_ofMagnitude hle, isNegative_ofMagnitude hle]
        conv_rhs => rw [← ofMagnitude_magnitude v, hv.1]
        rfl
      rw [Expr.spelled, if_pos hv]
      show (finite (Formula.absolute v)).bind (fun x => finite (-x)) = finite v
      rw [finite_eq_ok.2 ⟨habs, rfl⟩]
      show finite (-Formula.absolute v) = finite v
      rw [hneg]
    -- any other number is its absolute value, as a zero has no sign
    · have hsign : isNegative v = false := by
        by_contra hsign
        exact hsign (hzero (by_contra fun hmagnitude => hv ⟨by simpa using hsign, hmagnitude⟩))
      rw [Expr.spelled, if_neg hv, Formula.absolute, ← hsign, ofMagnitude_magnitude]
  | neg e ih =>
    rw [Expr.spelled, eval, eval, ih h]
  | binary op l r ihl ihr =>
    rw [Expr.spelled, eval, eval, ihl fun v hv => h v (List.mem_append_left _ hv),
      ihr fun v hv => h v (List.mem_append_right _ hv)]

end Expr

end FormulaBar
