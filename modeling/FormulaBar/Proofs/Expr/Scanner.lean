import FormulaBar.Proofs.Expr.Limit

/-!
# FormulaBar.Proofs.Expr.Scanner — where a row of lexemes goes wrong

A scanner goes over a row once and keeps only what it wants next and the number of open parentheses. It stops at the
first lexeme that cannot stand where it does, and `ofLexemes_scan` says that the readers report just that place: each of
them leaves off where the scanner leaves off (`read_tells`), inside parentheses, behind a sign and in an exponent alike.
-/

namespace FormulaBar

/-- What a scanner wants next: a number with what may stand in front of it, or what may follow a number. -/
inductive Wanted
  | operand
  | operator
deriving DecidableEq, Repr

/-- The state of a scanner. It starts at an operand, with no parenthesis open. -/
structure Scanner where
  wants : Wanted := .operand
  opened : Nat := 0
deriving DecidableEq, Repr

namespace Scanner

/-- The state behind a lexeme, or none if the scanner is stuck in front of it. -/
def step : Scanner → Lexeme → Option Scanner
  | ⟨.operand, n⟩, .plus | ⟨.operand, n⟩, .minus => some ⟨.operand, n⟩
  | ⟨.operand, n⟩, .leftParen => some ⟨.operand, n + 1⟩
  | ⟨.operand, n⟩, .number _ => some ⟨.operator, n⟩
  | ⟨.operator, n⟩, .plus | ⟨.operator, n⟩, .minus | ⟨.operator, n⟩, .star | ⟨.operator, n⟩, .slash
  | ⟨.operator, n⟩, .caret => some ⟨.operand, n⟩
  | ⟨.operator, n + 1⟩, .rightParen => some ⟨.operator, n⟩
  | _, _ => none

/-- The last state of a scanner, and the lexemes from where it is stuck. -/
def scan (s : Scanner) : List Lexeme → Scanner × List Lexeme
  | [] => (s, [])
  | t :: ts =>
    match s.step t with
    | some next => next.scan ts
    | none => (s, t :: ts)

/-- The scanner gets through the row and ends in `s`. -/
def EndsIn (ts : List Lexeme) (s : Scanner) : Prop := scan {} ts = (s, [])

/-- The scanner is stuck in `s` at position `p`, in front of `t`. -/
def StuckAt (ts : List Lexeme) (p : Nat) (s : Scanner) (t : Lexeme) : Prop :=
  ∃ rest, scan {} ts = (s, t :: rest) ∧ p + (t :: rest).length = ts.length

@[simp] theorem scan_nil (s : Scanner) : s.scan [] = (s, []) := rfl

theorem scan_step {s : Scanner} {t : Lexeme} (next : Scanner) (h : s.step t = some next) (ts : List Lexeme) :
    s.scan (t :: ts) = next.scan ts := by
  rw [scan, h]

theorem scan_stuck {s : Scanner} {t : Lexeme} (h : s.step t = none) (ts : List Lexeme) :
    s.scan (t :: ts) = (s, t :: ts) := by
  rw [scan, h]

theorem scan_joining {k : Parser.Phrase} {t : Lexeme} {op : BinaryOp} (h : k.joins t = some op) (n : Nat)
    (ts : List Lexeme) : scan ⟨.operator, n⟩ (t :: ts) = scan ⟨.operand, n⟩ ts := by
  refine scan_step _ ?_ ts
  cases k <;> cases t <;> first | rfl | cases h

/-- What is left of a row is no longer than the row. -/
theorem length_scan_le (s : Scanner) (ts : List Lexeme) : (s.scan ts).2.length ≤ ts.length := by
  induction ts generalizing s with
  | nil => exact Nat.le_refl _
  | cons t ts ih =>
    cases h : s.step t with
    | none => simp only [scan_stuck h, Nat.le_refl]
    | some next =>
      rw [scan_step _ h]
      exact Nat.le_succ_of_le (ih next)

/-- A scanner is stuck in one place only. -/
theorem exists_stuckAt {ts us : List Lexeme} {s : Scanner} {t : Lexeme} (h : scan {} ts = (s, t :: us)) (p : Nat)
    (P : Scanner → Lexeme → Prop) :
    (∃ s' t', StuckAt ts p s' t' ∧ P s' t') ↔ p = ts.length - (t :: us).length ∧ P s t := by
  have hle := length_scan_le {} ts
  rw [h] at hle
  constructor
  · rintro ⟨s', t', ⟨rest, hrest, hp⟩, hP⟩
    obtain ⟨rfl, rfl, rfl⟩ : s = s' ∧ t = t' ∧ us = rest := by simpa using h.symm.trans hrest
    exact ⟨by omega, hP⟩
  · rintro ⟨rfl, hP⟩
    exact ⟨s, t, ⟨us, h, Nat.sub_add_cancel hle⟩, hP⟩

end Scanner

namespace Parser

open Scanner

/-! ### What a reading tells of the scan -/

/-- The lexemes that lead on from the end of a phrase. -/
def Phrase.LeadsOn : Phrase → Lexeme → Prop
  | sum, t => t = .caret ∨ t.multiplicative? ≠ none ∨ t.additive? ≠ none
  | product, t => t = .caret ∨ t.multiplicative? ≠ none
  | signed, t | power, t => t = .caret
  | atom, _ => False

/-- The rest of a row does not lead a phrase on. -/
def Phrase.StopsAt (k : Phrase) (rest : List Lexeme) : Prop := ∀ t ∈ rest.head?, ¬k.LeadsOn t

/-- What reading a phrase inside `n` parentheses tells of a scan of the same lexemes: the scan has passed the phrase and
goes on in the rest, or it has come to the place that the error names. -/
def Tells (k : Phrase) (n : Nat) (seen : Scanner × List Lexeme) : Reading → Prop
  | .ok (_, rest) => seen = scan ⟨.operator, n⟩ rest ∧ k.StopsAt rest
  | .error .unexpectedEnd => ∃ m, seen = (⟨.operand, m⟩, [])
  | .error .missingClosingParen => ∃ m, seen = (⟨.operator, m + 1⟩, [])
  | .error (.unexpectedToken left) =>
    ∃ s t rest, seen = (s, t :: rest) ∧ left = (t :: rest).length ∧ s ≠ ⟨.operator, 0⟩
  | .error .tooDeep => False

variable {k : Phrase} {n d : Nat} {seen : Scanner × List Lexeme} {x : Reading} {ts : List Lexeme}

theorem stopsAt_nil (k : Phrase) : k.StopsAt [] := by simp [Phrase.StopsAt]

theorem stopsAt_cons {t : Lexeme} : k.StopsAt (t :: ts) ↔ ¬k.LeadsOn t := by simp [Phrase.StopsAt]

/-- An error tells the same of every phrase around it. -/
theorem Tells.bind {k' : Phrase} {n' : Nat} {f : Expr × List Lexeme → Reading} (h : Tells k n seen x)
    (hf : ∀ e rest, x = .ok (e, rest) → seen = scan ⟨.operator, n⟩ rest → k.StopsAt rest →
      Tells k' n' seen (f (e, rest))) : Tells k' n' seen (x.bind f) := by
  cases x with
  | ok p => exact hf p.1 p.2 rfl h.1 h.2
  | error e => cases e <;> exact h

theorem Tells.map {k' : Phrase} (h : Tells k n seen x) (hstop : ∀ rest, k.StopsAt rest → k'.StopsAt rest)
    (g : Expr → Expr) : Tells k' n seen (x.map fun p => (g p.1, p.2)) := by
  cases x with
  | ok p => exact ⟨h.1, hstop p.2 h.2⟩
  | error e => cases e <;> exact h

/-! ### Each reader keeps step with the scanner -/

/-- Powers and atoms are read behind all signs. -/
def Phrase.BehindSigns : Phrase → List Lexeme → Prop
  | power, ts | atom, ts => (∀ us, ts ≠ .plus :: us) ∧ ∀ us, ts ≠ .minus :: us
  | _, _ => True

/-- Reading a phrase without a limit tells what a scan from an operand sees. -/
def InStep (k : Phrase) (d : Nat) (ts : List Lexeme) : Prop :=
  k.BehindSigns ts → ∀ n, Tells k n (scan ⟨.operand, n⟩ ts) (read none k d ts)

/-- Continuing a phrase whose last part has come to its end tells what a scan from an operator sees. -/
def InStepMore (k : Phrase) (d : Nat) (ts : List Lexeme) : Prop :=
  ∀ n left, k.part.StopsAt ts → Tells k n (scan ⟨.operator, n⟩ ts) (readMore none k d left ts)

theorem not_leadsOn_of_part {t : Lexeme} (hpart : ¬k.part.LeadsOn t) (hjoin : k.joins t = none) : ¬k.LeadsOn t := by
  cases k <;> simp_all [Phrase.LeadsOn, Phrase.part, Phrase.joins]

theorem behindSigns_part {t : Lexeme} {op : BinaryOp} (h : k.joins t = some op) : k.part.BehindSigns ts := by
  cases k <;> trivial

theorem inStepMore (hpart : ∀ us, us.length < ts.length → InStep k.part d us)
    (hmore : ∀ us, us.length < ts.length → InStepMore k d us) : InStepMore k d ts := by
  intro n left hstop
  cases ts with
  | nil =>
    rw [readMore_nil]
    exact ⟨rfl, stopsAt_nil k⟩
  | cons t us =>
    cases ht : k.joins t with
    | none =>
      rw [readMore_stop ht]
      exact ⟨rfl, stopsAt_cons.2 (not_leadsOn_of_part (stopsAt_cons.1 hstop) ht)⟩
    | some op =>
      rw [readMore_step ht, scan_joining ht]
      refine (hpart us (Nat.lt_succ_self _) (behindSigns_part ht) n).bind fun e rest hread hseen hend => ?_
      rw [hseen]
      exact hmore rest (Nat.lt_succ_of_lt (read_shorter hread)) n _ hend

/-- Behind the sum inside a group stands its closing parenthesis, or the scanner has no way on. -/
theorem tells_closing (inner : Expr) (hstop : Phrase.sum.StopsAt ts) :
    Tells .atom n (scan ⟨.operator, n + 1⟩ ts) (readClosing inner ts) := by
  cases ts with
  | nil => exact ⟨n, rfl⟩
  | cons t us =>
    have hon : ¬Phrase.sum.LeadsOn t := stopsAt_cons.1 hstop
    cases t with
    | rightParen => exact ⟨scan_step _ rfl us, fun _ _ => id⟩
    | number v => exact ⟨_, _, us, scan_stuck rfl us, rfl, by simp⟩
    | leftParen => exact ⟨_, _, us, scan_stuck rfl us, rfl, by simp⟩
    | _ => simp [Phrase.LeadsOn, Lexeme.multiplicative?, Lexeme.additive?] at hon

theorem inStep_atom (hsum : ∀ us, us.length < ts.length → InStep .sum (d + 1) us) : InStep .atom d ts := by
  intro hsigns n
  cases ts with
  | nil =>
    rw [read_atom_nil]
    exact ⟨n, rfl⟩
  | cons t us =>
    cases t with
    -- signs were taken before
    | plus => exact absurd rfl (hsigns.1 us)
    | minus => exact absurd rfl (hsigns.2 us)
    | number v =>
      rw [read_atom_number]
      exact ⟨scan_step _ rfl us, fun _ _ => id⟩
    -- inside a group one more parenthesis is open
    | leftParen =>
      rw [read_atom_group, scan_step ⟨.operand, n + 1⟩ rfl]
      refine (hsum us (Nat.lt_succ_self _) trivial (n + 1)).bind fun e rest _ hseen hend => ?_
      rw [hseen]
      exact tells_closing e hend
    | _ =>
      rw [read_atom_of_other (by simp) (by simp)]
      exact ⟨_, _, us, scan_stuck rfl us, rfl, by simp⟩

theorem inStep_power (hatom : InStep .atom d ts)
    (hsigned : ∀ us, us.length < ts.length → InStep .signed (d + 1) us) : InStep .power d ts := by
  intro hsigns n
  rw [read_power]
  refine (hatom hsigns n).bind fun base rest hread hseen _ => ?_
  rw [hseen]
  have hshort := read_shorter hread
  by_cases hcaret : ∃ us, rest = .caret :: us
  · obtain ⟨us, rfl⟩ := hcaret
    rw [scan_step ⟨.operand, n⟩ rfl]
    exact (hsigned us (Nat.lt_of_succ_lt hshort) trivial n).map (fun _ => id) _
  · rw [readExponent_of_ne base (not_exists.1 hcaret)]
    refine ⟨rfl, fun t ht htc => hcaret ?_⟩
    obtain ⟨us, rfl⟩ := List.head?_eq_some_iff.1 ht
    exact ⟨us, by rw [show t = .caret from htc]⟩

theorem inStep_signed (hpower : InStep .power d ts)
    (hsigned : ∀ us, us.length < ts.length → InStep .signed (d + 1) us) : InStep .signed d ts := by
  intro _ n
  by_cases hplus : ∃ us, ts = .plus :: us
  · obtain ⟨us, rfl⟩ := hplus
    rw [read_signed_plus rfl, scan_step ⟨.operand, n⟩ rfl]
    exact hsigned us (Nat.lt_succ_self _) trivial n
  by_cases hminus : ∃ us, ts = .minus :: us
  · obtain ⟨us, rfl⟩ := hminus
    rw [read_signed_minus rfl, scan_step ⟨.operand, n⟩ rfl]
    exact (hsigned us (Nat.lt_succ_self _) trivial n).map (fun _ => id) _
  · have hsigns : Phrase.power.BehindSigns ts := ⟨not_exists.1 hplus, not_exists.1 hminus⟩
    rw [read_signed_of_unsigned rfl hsigns.1 hsigns.2]
    have htells := hpower hsigns n
    cases hread : read none .power d ts with
    | ok p => rw [hread] at htells; exact htells
    | error e => rw [hread] at htells; cases e <;> exact htells

theorem inStep_product (hsigned : InStep .signed d ts)
    (hmore : ∀ us, us.length < ts.length → InStepMore .product d us) : InStep .product d ts := by
  intro _ n
  rw [read_product]
  refine (hsigned trivial n).bind fun e rest hread hseen hend => ?_
  rw [hseen]
  exact hmore rest (read_shorter hread) n e hend

theorem inStep_sum (hproduct : InStep .product d ts)
    (hmore : ∀ us, us.length < ts.length → InStepMore .sum d us) : InStep .sum d ts := by
  intro _ n
  rw [read_sum]
  refine (hproduct trivial n).bind fun e rest hread hseen hend => ?_
  rw [hseen]
  exact hmore rest (read_shorter hread) n e hend

/-- Every reader tells what a scan of the same lexemes sees. -/
theorem read_tells (k : Phrase) (d : Nat) (ts : List Lexeme) : InStep k d ts :=
  readers_induct (fun _ _ _ => inStepMore) (fun _ _ => inStep_atom) (fun _ _ => inStep_power)
    (fun _ _ => inStep_signed) (fun _ _ => inStep_product) (fun _ _ => inStep_sum) k d ts

end Parser

namespace Expr

open FormulaBar.Parser Scanner

/-- A number or an opening parenthesis, with which another expression would start. -/
def StartsAnother (t : Lexeme) : Prop := (∃ v, t = .number v) ∨ t = .leftParen

/-- Behind a whole sum outside of parentheses the scanner cannot go on. -/
theorem stuck_behind_sum {t : Lexeme} {us : List Lexeme} (h : Phrase.sum.StopsAt (t :: us)) :
    scan ⟨.operator, 0⟩ (t :: us) = (⟨.operator, 0⟩, t :: us) ∧ (StartsAnother t ∨ t = .rightParen) := by
  have hon : ¬Phrase.sum.LeadsOn t := stopsAt_cons.1 h
  cases t with
  | number v => exact ⟨scan_stuck rfl us, .inl (.inl ⟨v, rfl⟩)⟩
  | leftParen => exact ⟨scan_stuck rfl us, .inl (.inr rfl)⟩
  | rightParen => exact ⟨scan_stuck rfl us, .inr rfl⟩
  | _ => simp [Phrase.LeadsOn, Lexeme.multiplicative?, Lexeme.additive?] at hon

/-- A row that is not nested too deeply is read as a scan of it ends: it is an expression if the scan comes through with
nothing open, and otherwise the error says where and in which state the scan ended. -/
theorem ofLexemes_scan (ts : List Lexeme) (hpos : 1 ≤ ts.length) (hshort : ts.length ≤ maxLexemes)
    (hdeep : ofLexemes (some maxDepth) ts ≠ .error .tooDeep) :
    ((∃ e, ofLexemes (some maxDepth) ts = .ok e) ↔ EndsIn ts ⟨.operator, 0⟩) ∧
    (∀ p, ofLexemes (some maxDepth) ts = .error (.trailingInput p) ↔
      ∃ s t, StuckAt ts p s t ∧ s = ⟨.operator, 0⟩ ∧ StartsAnother t) ∧
    (∀ p, ofLexemes (some maxDepth) ts = .error (.unexpectedToken p) ↔
      ∃ s t, StuckAt ts p s t ∧ ¬(s = ⟨.operator, 0⟩ ∧ StartsAnother t)) ∧
    (ofLexemes (some maxDepth) ts = .error .unexpectedEnd ↔ ∃ n, EndsIn ts ⟨.operand, n⟩) ∧
    (ofLexemes (some maxDepth) ts = .error .missingClosingParen ↔ ∃ n, 0 < n ∧ EndsIn ts ⟨.operator, n⟩) := by
  -- with a limit the row is read as without, since it is not too deep
  have hrow := (ofLexemes_limit maxDepth ts).resolve_left hdeep
  have hnone := @ofLexemes_eq_read none ts (List.length_pos_iff.1 hpos) hshort
  rw [hnone] at hrow
  have hseen := read_tells .sum 0 ts trivial 0
  cases hread : read none .sum 0 ts with
  | ok p =>
    obtain ⟨e, rest⟩ := p
    rw [hread] at hrow hseen
    obtain ⟨hscan, hstop⟩ := hseen
    cases rest with
    | nil => simp [hrow, EndsIn, StuckAt, hscan]
    | cons t us =>
      -- a sum has ended in front of `t`, and there the scan is stuck as well
      obtain ⟨hstuck, ht⟩ := stuck_behind_sum hstop
      have hplace := exists_stuckAt (hscan.trans hstuck)
      -- `t` may start another expression, or close what was not opened
      rcases ht with ht | rfl
      · have herror (p : Nat) : leftOver p t = .trailingInput p := by rcases ht with ⟨v, rfl⟩ | rfl <;> rfl
        refine ⟨by simp [hrow, herror, EndsIn, hscan, hstuck], fun p => Iff.trans ?_ (hplace p _).symm,
          fun p => Iff.trans ?_ (hplace p _).symm, ?_⟩
        all_goals simp [hrow, herror, EndsIn, hscan, hstuck, ht, eq_comm]
      · have hclosing : ¬StartsAnother .rightParen := by simp [StartsAnother]
        refine ⟨by simp [hrow, leftOver, EndsIn, hscan, hstuck], fun p => Iff.trans ?_ (hplace p _).symm,
          fun p => Iff.trans ?_ (hplace p _).symm, ?_⟩
        all_goals simp [hrow, leftOver, EndsIn, hscan, hstuck, hclosing, eq_comm]
  | error e =>
    rw [hread] at hrow hseen
    cases e with
    | unexpectedEnd =>
      obtain ⟨m, hscan⟩ := hseen
      simp [hrow, EndsIn, StuckAt, hscan, SyntaxError.inRow]
    | unexpectedToken left =>
      obtain ⟨s, t, us, hscan, rfl, hs⟩ := hseen
      have hplace := exists_stuckAt hscan
      refine ⟨by simp [hrow, EndsIn, hscan, SyntaxError.inRow], fun p => Iff.trans ?_ (hplace p _).symm,
        fun p => Iff.trans ?_ (hplace p _).symm, ?_⟩
      all_goals simp [hrow, EndsIn, hscan, SyntaxError.inRow, hs, eq_comm]
    | missingClosingParen =>
      obtain ⟨m, hscan⟩ := hseen
      simp [hrow, EndsIn, StuckAt, hscan, SyntaxError.inRow]
    | tooDeep => exact hseen.elim

/-- The lexemes of `2^-(3*4 5`. -/
def brokenGroup : List Lexeme :=
  [.number 2, .caret, .minus, .leftParen, .number 3, .star, .number 4, .number 5]

theorem ofLexemes_scan_brokenGroup :
    1 ≤ brokenGroup.length ∧ brokenGroup.length ≤ maxLexemes ∧
    ofLexemes (some maxDepth) brokenGroup ≠ .error .tooDeep ∧
    ofLexemes (some maxDepth) brokenGroup = .error (.unexpectedToken 7) := by
  have hpos : 1 ≤ brokenGroup.length := by decide
  have hshort : brokenGroup.length ≤ maxLexemes := by decide
  have hdeep : ofLexemes (some maxDepth) brokenGroup ≠ .error .tooDeep := by
    cbv
    simp
  have hstuck : StuckAt brokenGroup 7 ⟨.operator, 1⟩ (.number 5) := ⟨[], rfl, rfl⟩
  exact ⟨hpos, hshort, hdeep,
    ((ofLexemes_scan brokenGroup hpos hshort hdeep).2.2.1 7).2 ⟨_, _, hstuck, by simp⟩⟩

end Expr

end FormulaBar
