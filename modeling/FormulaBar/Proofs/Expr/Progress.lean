import FormulaBar.Proofs.Expr.Calls
import FormulaBar.Proofs.Expr.Value

/-!
# FormulaBar.Proofs.Expr.Progress — reading uses lexemes up and pays for the tree with them

Every lexeme that a phrase uses is a node of its expression, a parenthesis or a plus sign in front of an operand, and
nothing else is in the expression (`lexemes_of_derives`). So a phrase is never empty, and a tree is no larger than its
row. Reading makes no more than five calls for every lexeme and five for the end of the row (`few_calls`): the phrases
that are read from the same lexemes are at most five, and whatever a phrase used is not read again. Evaluation goes no
deeper than the tree has nodes (`evalNested`).
-/

namespace FormulaBar

namespace Lexeme

def isLeftParen : Lexeme → Bool
  | leftParen => true
  | _ => false

def isRightParen : Lexeme → Bool
  | rightParen => true
  | _ => false

/-- An operand may end with this lexeme. -/
def endsOperand : Lexeme → Bool
  | number _ | rightParen => true
  | _ => false

/-- The plus signs of a row in front of an operand. The flag says that an operand stands before the row, and then a plus
sign at its front joins two operands. -/
def unaryPluses (behindOperand : Bool) : List Lexeme → Nat
  | [] => 0
  | .plus :: ts => (if behindOperand then 0 else 1) + unaryPluses false ts
  | t :: ts => unaryPluses t.endsOperand ts

/-- An operand ends with the last lexeme of the row. -/
def EndOperand (ts : List Lexeme) : Prop := ∃ before t, ts = before ++ [t] ∧ t.endsOperand = true

variable {t : Lexeme} {ts us : List Lexeme}

theorem EndOperand.append (h : EndOperand us) (ts : List Lexeme) : EndOperand (ts ++ us) := by
  obtain ⟨before, t, rfl, ht⟩ := h
  exact ⟨ts ++ before, t, (List.append_assoc ..).symm, ht⟩

theorem unaryPluses_behind_operand (t : Lexeme) (ts : List Lexeme) :
    unaryPluses true (t :: ts) = unaryPluses t.endsOperand ts := by
  cases t with
  | plus => exact Nat.zero_add _
  | _ => rfl

theorem unaryPluses_endsOperand (ht : t.endsOperand = true) (behind : Bool) (ts : List Lexeme) :
    unaryPluses behind (t :: ts) = unaryPluses true ts := by
  cases t with
  | number _ | rightParen => rfl
  | _ => cases ht

/-- What stands behind an operand does not change the signs in it. -/
theorem unaryPluses_append (h : EndOperand ts) (behind : Bool) (us : List Lexeme) :
    unaryPluses behind (ts ++ us) = unaryPluses behind ts + unaryPluses true us := by
  obtain ⟨before, t, rfl, ht⟩ := h
  -- The flag changes with every lexeme, and only the last one has to end an operand.
  induction before generalizing behind with
  | nil => simp [unaryPluses_endsOperand ht, unaryPluses]
  | cons u before ih =>
    rw [List.cons_append, List.cons_append]
    cases u with
    | plus => rw [unaryPluses, unaryPluses, ih, Nat.add_assoc]
    | _ => exact ih _

end Lexeme

namespace Parser

open Lexeme

variable {limit : Option Nat} {k : Phrase} {d : Nat} {ts : List Lexeme} {e : Expr}

/-! ### The lexemes of a phrase -/

/-- What joins two parts is no parenthesis, and an operand is wanted behind it. -/
theorem wants_operand_of_joins {t : Lexeme} {op : BinaryOp} (h : k.joins t = some op) :
    t.endsOperand = false ∧ t.isLeftParen = false ∧ t.isRightParen = false := by
  cases k <;> cases t <;> first | exact ⟨rfl, rfl, rfl⟩ | cases h

theorem endOperand_of_derives (h : Derives limit k d ts e) : EndOperand ts := by
  induction h with
  | sum_single _ ih | product_single _ ih | unsigned _ _ ih | base _ ih => exact ih
  | sum_more _ _ _ _ ihr | product_more _ _ _ _ ihr => exact (ihr.append [_]).append _
  | plus _ _ ih | minus _ _ ih => exact ih.append [_]
  | raised _ _ _ ihx => exact (ihx.append [_]).append _
  | number value => exact ⟨[], .number value, rfl, rfl⟩
  | group _ _ => exact ⟨_, .rightParen, rfl, rfl⟩

/-- The lexemes of a row are told by its expression: each node takes one, and so does each parenthesis and each plus sign
in front of an operand. -/
structure Accounts (e : Expr) (ts : List Lexeme) : Prop where
  closed : ts.countP isRightParen = ts.countP isLeftParen
  lexemes : e.parts.length + 2 * ts.countP isLeftParen + unaryPluses false ts = ts.length

/-- Two parts and what joins them: one more lexeme, and one more node. -/
theorem Accounts.joined {l r : Expr} {t : Lexeme} {us : List Lexeme} (hl : Accounts l ts) (hr : Accounts r us)
    (hend : EndOperand ts) (ht : t.endsOperand = false ∧ t.isLeftParen = false ∧ t.isRightParen = false)
    (op : BinaryOp) : Accounts (.binary op l r) (ts ++ t :: us) := by
  obtain ⟨hends, hleft, hright⟩ := ht
  have hsigns : unaryPluses false (ts ++ t :: us) = unaryPluses false ts + unaryPluses false us := by
    rw [unaryPluses_append hend, unaryPluses_behind_operand, hends]
  have hnodes : (Expr.binary op l r).parts.length = l.parts.length + r.parts.length + 1 := by
    rw [Expr.parts, List.length_cons, List.length_append]
  have hcount (q : Lexeme → Bool) (hq : q t = false) :
      (ts ++ t :: us).countP q = ts.countP q + us.countP q := by
    rw [List.countP_append, List.countP_cons_of_neg (by simp [hq])]
  refine ⟨?_, ?_⟩
  · rw [hcount _ hleft, hcount _ hright, hl.closed, hr.closed]
  · have hl := hl.lexemes
    have hr := hr.lexemes
    rw [hnodes, hcount _ hleft, hsigns, List.length_append, List.length_cons]
    omega

theorem Accounts.group (h : Accounts e ts) (hend : EndOperand ts) : Accounts e (.leftParen :: ts ++ [.rightParen]) := by
  have hsigns : unaryPluses false (.leftParen :: ts ++ [.rightParen]) = unaryPluses false ts := unaryPluses_append hend ..
  have hleft : (leftParen :: ts ++ [rightParen]).countP isLeftParen = ts.countP isLeftParen + 1 := by
    rw [List.countP_append, List.countP_cons_of_pos rfl]
    rfl
  have hright : (leftParen :: ts ++ [rightParen]).countP isRightParen = ts.countP isRightParen + 1 := by
    rw [List.countP_append, List.countP_cons_of_neg Bool.false_ne_true]
    rfl
  refine ⟨?_, ?_⟩
  · rw [hleft, hright, h.closed]
  · have hlexemes := h.lexemes
    rw [hleft, hsigns, List.length_append, List.length_cons, List.length_singleton]
    omega

theorem lexemes_of_derives (h : Derives limit k d ts e) : Accounts e ts := by
  induction h with
  | sum_single _ ih | product_single _ ih | unsigned _ _ ih | base _ ih => exact ih
  -- what joins two parts is the operation of one inner node
  | @sum_more _ _ t _ _ _ op hl ht _ ihl ihr =>
    exact ihl.joined ihr (endOperand_of_derives hl) (wants_operand_of_joins (k := .sum) ht) op
  | @product_more _ _ t _ _ _ op hl ht _ ihl ihr =>
    exact ihl.joined ihr (endOperand_of_derives hl) (wants_operand_of_joins (k := .product) ht) op
  | raised hb _ ihb ihx => exact ihb.joined ihx (endOperand_of_derives hb) ⟨rfl, rfl, rfl⟩ .pow
  | @plus _ ts e _ _ ih =>
    -- a plus leaves no node in the tree, so it is counted apart
    have hsigns : unaryPluses false (.plus :: ts) = 1 + unaryPluses false ts := rfl
    have hlexemes := ih.lexemes
    refine ⟨ih.closed, ?_⟩
    rw [List.countP_cons_of_neg Bool.false_ne_true, hsigns, List.length_cons]
    omega
  | @minus _ ts e _ _ ih =>
    -- a minus is a node
    have hsigns : unaryPluses false (.minus :: ts) = unaryPluses false ts := rfl
    have hlexemes := ih.lexemes
    refine ⟨ih.closed, ?_⟩
    rw [List.countP_cons_of_neg Bool.false_ne_true, hsigns, Expr.parts, List.length_cons, List.length_cons]
    omega
  | number value => exact ⟨rfl, rfl⟩
  | group h ih => exact ih.group (endOperand_of_derives h)

/-! ### The calls -/

/-- The calls that the lexemes behind a phrase may still need: five for each, and five for the end of the row. -/
def Reading.unspent : Reading → Nat
  | .ok (_, rest) => 5 * (rest.length + 1)
  | .error _ => 0

/-- The calls for a phrase and those still needed behind it are no more than its row and its kind allow. -/
def Thrifty (limit : Option Nat) (k : Phrase) (d : Nat) (ts : List Lexeme) : Prop :=
  (calls limit k d ts).length + Reading.unspent (read limit k d ts) ≤ 5 * ts.length + k.looseness

/-- The same of continuing a phrase. -/
def ThriftyMore (limit : Option Nat) (k : Phrase) (d : Nat) (ts : List Lexeme) : Prop :=
  ∀ left, (moreCalls limit k d ts).length + Reading.unspent (readMore limit k d left ts) ≤ 5 * (ts.length + 1)

theorem looseness_le (k : Phrase) : k.looseness ≤ 5 := by
  cases k <;> decide

/-- Calls behind a phrase are paid for by what the phrase left unspent. -/
theorem unspent_bind {x : Reading} {f : Expr × List Lexeme → Reading} {next : List Lexeme → List Call} {cs : List Call}
    {n : Nat} (hx : cs.length + x.unspent ≤ n)
    (hf : ∀ e rest, x = .ok (e, rest) → (next rest).length + Reading.unspent (f (e, rest)) ≤ 5 * (rest.length + 1)) :
    (cs ++ behind x next).length + Reading.unspent (x.bind f) ≤ n := by
  cases x with
  | error error =>
    rw [behind, List.append_nil]
    exact hx
  | ok p =>
    have hbehind := hf p.1 p.2 rfl
    have hsum := Nat.add_le_add_left hbehind cs.length
    rw [behind, List.length_append, Nat.add_assoc]
    exact Nat.le_trans hsum hx

/-- The same where no calls are made behind the phrase. -/
theorem unspent_bind_quiet {x : Reading} {f : Expr × List Lexeme → Reading}
    (hf : ∀ p, Reading.unspent (f p) ≤ 5 * (p.2.length + 1)) : Reading.unspent (x.bind f) ≤ x.unspent := by
  cases x with
  | error error => exact Nat.le_refl _
  | ok p => exact hf p

theorem unspent_readClosing (inner : Expr) (ts : List Lexeme) :
    Reading.unspent (readClosing inner ts) ≤ 5 * (ts.length + 1) := by
  unfold readClosing
  split
  · exact Nat.zero_le _
  · exact Nat.mul_le_mul_left 5 (Nat.le_succ _)
  · exact Nat.zero_le _

theorem unspent_map (x : Reading) (g : Expr → Expr) :
    Reading.unspent (x.map fun p => (g p.1, p.2)) = x.unspent := by
  cases x <;> rfl

theorem thriftyMore (hpart : ∀ us, us.length < ts.length → Thrifty limit k.part d us)
    (hmore : ∀ us, us.length < ts.length → ThriftyMore limit k d us) : ThriftyMore limit k d ts := by
  intro left
  cases ts with
  | nil =>
    rw [moreCalls_nil, readMore_nil]
    exact Nat.le_refl _
  | cons t us =>
    cases ht : k.joins t with
    | none =>
      rw [moreCalls_stop ht, readMore_stop ht]
      exact Nat.le_of_eq (Nat.zero_add _)
    | some op =>
      rw [moreCalls_step ht, readMore_step ht]
      -- What joins the parts is used up, and its five calls pay for the next part.
      have hloose := looseness_le k.part
      refine unspent_bind (Nat.le_trans (hpart us (Nat.lt_succ_self _)) ?_) fun e rest hread => ?_
      · rw [List.length_cons]
        omega
      · exact hmore rest (Nat.lt_succ_of_lt (read_shorter hread)) _

theorem thrifty_atom (hsum : ∀ us, us.length < ts.length → Thrifty limit .sum (d + 1) us) :
    Thrifty limit .atom d ts := by
  -- a group pays for the call inside and for its two parentheses
  by_cases hgroup : ∃ us, ts = .leftParen :: us
  · obtain ⟨us, rfl⟩ := hgroup
    have hinner := hsum us (Nat.lt_succ_self _)
    have hclosing := unspent_bind_quiet (x := read limit .sum (d + 1) us) fun p => unspent_readClosing p.1 p.2
    simp only [Thrifty, Phrase.looseness] at hinner ⊢
    rw [calls_atom_group, read_atom_group, List.length_cons, List.length_cons]
    omega
  · rw [Thrifty, calls_atom_of_ne (not_exists.1 hgroup), Phrase.looseness, List.length_singleton]
    -- any other row is one call, paid for by its lexeme
    have hunspent : Reading.unspent (read limit .atom d ts) ≤ 5 * ts.length := by
      cases ts with
      | nil => simp [Reading.unspent]
      | cons t us =>
        cases t with
        | number v => simp [Reading.unspent]
        | leftParen => exact absurd ⟨us, rfl⟩ hgroup
        | _ =>
          rw [read_atom_of_other (by simp) (by simp)]
          exact Nat.zero_le _
    omega

theorem thrifty_power (hatom : Thrifty limit .atom d ts)
    (hsigned : ∀ us, us.length < ts.length → Thrifty limit .signed (d + 1) us) : Thrifty limit .power d ts := by
  have hbehind : (calls limit .atom d ts ++ behind (read limit .atom d ts) (exponentCalls limit d)).length +
      Reading.unspent (read limit .power d ts) ≤ 5 * ts.length + 1 := by
    rw [read_power]
    refine unspent_bind hatom fun base rest hread => ?_
    by_cases hcaret : ∃ us, rest = .caret :: us
    · obtain ⟨us, rfl⟩ := hcaret
      have hexponent := hsigned us (Nat.lt_of_succ_lt (read_shorter hread))
      rw [Thrifty, Phrase.looseness] at hexponent
      have hsame : Reading.unspent (readExponent limit d base (.caret :: us)) =
          Reading.unspent (read limit .signed (d + 1) us) := unspent_map _ _
      rw [hsame, List.length_cons]
      -- The calls that the caret allows pay for an exponent, a looser phrase than what stands before it.
      exact Nat.le_trans hexponent (by omega)
    · rw [readExponent_of_ne base (not_exists.1 hcaret), exponentCalls_of_ne (not_exists.1 hcaret)]
      exact Nat.le_of_eq (Nat.zero_add _)
  rw [Thrifty, calls_power, Phrase.looseness, List.length_cons]
  omega

theorem thrifty_signed (hpower : Thrifty limit .power d ts)
    (hsigned : ∀ us, us.length < ts.length → Thrifty limit .signed (d + 1) us) : Thrifty limit .signed d ts := by
  rw [Thrifty, Phrase.looseness] at hpower
  cases hdeep : isTooDeep limit d with
  | true =>
    -- a refusal is one call
    rw [Thrifty, calls_signed_of_tooDeep hdeep, read_signed_of_tooDeep hdeep, Phrase.looseness]
    exact Nat.le_trans (by decide : 1 ≤ 3) (Nat.le_add_left _ _)
  | false =>
    -- a sign is one lexeme, which pays for the call behind it
    by_cases hplus : ∃ us, ts = .plus :: us
    · obtain ⟨us, rfl⟩ := hplus
      have hinner := hsigned us (Nat.lt_succ_self _)
      rw [Thrifty, Phrase.looseness] at hinner ⊢
      rw [calls_signed_sign hdeep (.inl rfl), read_signed_plus hdeep, List.length_cons, List.length_cons]
      omega
    by_cases hminus : ∃ us, ts = .minus :: us
    · obtain ⟨us, rfl⟩ := hminus
      have hinner := hsigned us (Nat.lt_succ_self _)
      rw [Thrifty, Phrase.looseness] at hinner ⊢
      rw [calls_signed_sign hdeep (.inr rfl), read_signed_minus hdeep, unspent_map _ Expr.neg, List.length_cons,
        List.length_cons]
      omega
    · have hplus := not_exists.1 hplus
      have hminus := not_exists.1 hminus
      rw [Thrifty, calls_signed_of_unsigned hdeep hplus hminus, read_signed_of_unsigned hdeep hplus hminus,
        Phrase.looseness, List.length_cons]
      omega

theorem thrifty_joining (hk : k = .sum ∨ k = .product) (hpart : Thrifty limit k.part d ts)
    (hmore : ∀ us, us.length < ts.length → ThriftyMore limit k d us) : Thrifty limit k d ts := by
  have hbehind := unspent_bind (f := fun p => readMore limit k d p.1 p.2) hpart fun e rest hread =>
    hmore rest (read_shorter hread) e
  have hloose : k.looseness = k.part.looseness + 1 := by rcases hk with rfl | rfl <;> rfl
  rw [Thrifty, calls_joining hk, read_joining hk, hloose, List.length_cons]
  omega

/-- Reading makes no more than five calls for every lexeme, and as many for the end of the row as its kind has parts. -/
theorem few_calls (limit : Option Nat) (k : Phrase) (d : Nat) (ts : List Lexeme) : Thrifty limit k d ts :=
  readers_induct (fun _ _ _ => thriftyMore) (fun _ _ => thrifty_atom) (fun _ _ => thrifty_power)
    (fun _ _ => thrifty_signed) (fun _ _ => thrifty_joining (.inr rfl)) (fun _ _ => thrifty_joining (.inl rfl)) k d ts

/-! ### Positions in a row -/

/-- A phrase that is read from a position takes the lexemes up to a later one, and they account for its expression. -/
theorem exists_next_of_read {pos : Nat} {rest : List Lexeme} (hpos : pos ≤ ts.length)
    (h : read limit k d (ts.drop pos) = .ok (e, rest)) :
    ∃ next, pos < next ∧ next ≤ ts.length ∧ rest = ts.drop next ∧ Accounts e ((ts.drop pos).take (next - pos)) ∧
      ((ts.drop pos).take (next - pos)).filterMap Lexeme.value? = e.leaves := by
  have hshort := read_shorter h
  obtain ⟨used, hused, hderives⟩ := derives_of_read h
  have hlength := congrArg List.length hused
  rw [List.length_append, List.length_drop] at hlength
  rw [List.length_drop] at hshort
  have hrange : (ts.drop pos).take (pos + used.length - pos) = used := by
    rw [Nat.add_sub_cancel_left, hused, List.take_left]
  refine ⟨pos + used.length, by omega, by omega, ?_, ?_⟩
  · rw [← List.drop_drop, hused, List.drop_left]
  · rw [hrange]
    exact ⟨lexemes_of_derives hderives, leaves_of_derives hderives⟩

/-- Every call is made with the end of the row. -/
theorem row_suffix : ∀ c ∈ calls limit k d ts, c.row <:+ ts := by
  refine calls_induct (fun c c' hleads hc => ?_) (List.suffix_refl ts)
  cases hleads with
  | part _ hus => exact hus.trans hc
  | unsigned _ | base => exact hc
  | sign _ _ | group => exact (List.suffix_cons _ _).trans hc
  | exponent hus => exact ((List.suffix_cons _ _).trans hus).trans hc

theorem exists_position_of_call {pos : Nat} {c : Call} (hpos : pos ≤ ts.length)
    (h : c ∈ calls limit k d (ts.drop pos)) : ∃ here, pos ≤ here ∧ here ≤ ts.length ∧ c.row = ts.drop here := by
  obtain ⟨before, hbefore⟩ := row_suffix c h
  have hlength := congrArg List.length hbefore
  rw [List.length_append, List.length_drop] at hlength
  refine ⟨pos + before.length, by omega, by omega, ?_⟩
  rw [← List.drop_drop, ← hbefore, List.drop_left]

end Parser

namespace Expr

open FormulaBar.Parser

/-! ### The size of an expression -/

/-- Evaluation in which at most `n` calls may be open at once; `none` when they are not enough. -/
def evalNested : Nat → Expr → Option (Except EvalError Float)
  | 0, _ => none
  | _ + 1, number value => some (finite value)
  | n + 1, neg operand => (operand.evalNested n).map fun x => x.bind fun a => finite (-a)
  | n + 1, binary op left right =>
    (left.evalNested n).bind fun
      | .error error => some (.error error)
      | .ok x => (right.evalNested n).map fun y => y.bind fun b => finite (op.apply x b)

/-- No more calls are open at once than the expression has nodes. -/
theorem evalNested_of_length_le {e : Expr} {n : Nat} (h : e.parts.length ≤ n) : e.evalNested n = some e.eval := by
  induction e generalizing n with
  | number v =>
    obtain ⟨m, rfl⟩ := Nat.exists_eq_add_of_le' h
    rfl
  | neg e ih =>
    rw [parts, List.length_cons] at h
    obtain ⟨m, rfl⟩ := Nat.exists_eq_add_of_le' (Nat.le_trans (Nat.le_add_left 1 _) h)
    rw [evalNested, ih (by omega)]
    rfl
  | binary op l r ihl ihr =>
    rw [parts, List.length_cons, List.length_append] at h
    obtain ⟨m, rfl⟩ := Nat.exists_eq_add_of_le' (Nat.le_trans (Nat.le_add_left 1 _) h)
    rw [evalNested, ihl (by omega), ihr (by omega), Option.bind_some]
    show _ = some (l.eval.bind fun x => r.eval.bind fun y => finite (op.apply x y))
    cases l.eval <;> rfl

theorem length_parts_of_ofLexemes {limit : Option Nat} {ts : List Lexeme} {e : Expr}
    (h : ofLexemes limit ts = .ok e) : e.parts.length ≤ maxLexemes := by
  obtain ⟨-, hshort, hderives⟩ := ofLexemes_eq_ok_iff.1 h
  have haccounts := (lexemes_of_derives hderives).lexemes
  omega

end Expr

namespace Parser

open Lexeme

/-- Reading makes progress and pays for the tree. A phrase that is read from a position ends behind it and within the
row; the lexemes between are the nodes of its expression, the parentheses, two of a pair, and the plus signs in front of
an operand, and its leaves are the numbers between. No reader is called beyond the row, and no more than five are called
for every lexeme from there on and five for the end. So the expression of a text has no more nodes than a text may have
lexemes, and no more calls are open at once when it is evaluated. -/
theorem read_pays_for_tree :
    (∀ (limit : Option Nat) (k : Phrase) (d : Nat) (ts : List Lexeme) (pos : Nat), pos ≤ ts.length →
      (∀ e rest, read limit k d (ts.drop pos) = .ok (e, rest) →
        ∃ next, pos < next ∧ next ≤ ts.length ∧ rest = ts.drop next ∧
          let range := (ts.drop pos).take (next - pos)
          e.parts.length + 2 * range.countP isLeftParen + unaryPluses false range = next - pos ∧
          range.countP isRightParen = range.countP isLeftParen ∧
          e.leaves = range.filterMap Lexeme.value?) ∧
      (∀ c ∈ calls limit k d (ts.drop pos), ∃ here, pos ≤ here ∧ here ≤ ts.length ∧ c.row = ts.drop here) ∧
      (calls limit k d (ts.drop pos)).length ≤ 5 * (ts.length - pos + 1)) ∧
    ∀ (s : String) (e : Expr), Expr.ofChars s.toList = .ok e →
      e.parts.length ≤ maxLexemes ∧ e.evalNested maxLexemes = some e.eval := by
  refine ⟨fun limit k d ts pos hpos => ⟨fun e rest hread => ?_, fun c hc => ?_, ?_⟩, fun s e hparse => ?_⟩
  -- from the place of the row to the number of lexemes that were read
  · obtain ⟨next, hforward, hinside, hrest, haccounts, hleaves⟩ := exists_next_of_read hpos hread
    have hlength : ((ts.drop pos).take (next - pos)).length = next - pos := by
      rw [List.length_take, List.length_drop]
      omega
    exact ⟨next, hforward, hinside, hrest, haccounts.lexemes.trans hlength, haccounts.closed, hleaves.symm⟩
  · exact exists_position_of_call hpos hc
  · have hfew := few_calls limit k d (ts.drop pos)
    have hloose := looseness_le k
    rw [Thrifty, List.length_drop] at hfew
    omega
  · obtain ⟨ts, -, hts⟩ := bind_eq_ok.1 hparse
    have hsize := Expr.length_parts_of_ofLexemes hts
    exact ⟨hsize, Expr.evalNested_of_length_le hsize⟩

/-- Three nodes, a pair of parentheses and a plus sign in front of an operand: `1+(+2)`. -/
theorem read_pays_for_tree_group :
    let ts : List Lexeme := [.number 1, .plus, .leftParen, .plus, .number 2, .rightParen]
    ∃ e, read (some maxDepth) .sum 0 ts = .ok (e, []) ∧ e.parts.length + 2 * 1 + 1 = ts.length ∧ e.leaves = [1, 2] := by
  intro ts
  have htop : ∀ n ∈ some maxDepth, 0 ≤ n := fun n _ => Nat.zero_le n
  have hbelow : ∀ n ∈ some maxDepth, 1 ≤ n ∧ 2 ≤ n := by decide
  have hone : Derives (some maxDepth) .sum 0 [.number 1] (.number 1) :=
    .sum_single (.product_single (.unsigned htop (.base (.number 1))))
  have htwo : Derives (some maxDepth) .sum 1 [.plus, .number 2] (.number 2) :=
    .sum_single (.product_single (.plus (fun n hn => (hbelow n hn).1)
      (.unsigned (fun n hn => (hbelow n hn).2) (.base (.number 2)))))
  have hread : read (some maxDepth) .sum 0 ts = .ok (.binary .add (.number 1) (.number 2), []) :=
    derives_iff_read.1 (.sum_more hone rfl (.product_single (.unsigned htop (.base (.group htwo)))))
  obtain ⟨next, -, hinside, hrest, haccounts, -, hleaves⟩ :=
    (read_pays_for_tree.1 (some maxDepth) .sum 0 ts 0 (Nat.zero_le _)).1 _ _ hread
  have hend : next = ts.length := Nat.le_antisymm hinside (List.drop_eq_nil_iff.1 hrest.symm)
  subst hend
  exact ⟨_, hread, haccounts, hleaves⟩

end Parser

end FormulaBar
