import FormulaBar.Expr.Basic
import FormulaBar.Proofs.Expr.Reading

/-!
# FormulaBar.Proofs.Expr.Parts — a value is as finite as the values of all parts

`plain` computes an expression from the leaves up and passes on whatever comes out, infinity and NaN included. The value
of an expression is its plain value if every part of it, down to the numbers, has a finite one; otherwise there is none
(`eval_eq`). The operations are not looked into: some of them lead from infinity or NaN back to a finite number, and that
number is no value.
-/

namespace FormulaBar.Expr

open FormulaBar.Binary64

/-- The expression and all expressions inside it. -/
def parts : Expr → List Expr
  | number value => [number value]
  | neg operand => neg operand :: operand.parts
  | binary op left right => binary op left right :: (left.parts ++ right.parts)

/-- What the operations give from the leaves up, finite or not. -/
def plain : Expr → Float
  | number value => value
  | neg operand => -operand.plain
  | binary op left right => op.apply left.plain right.plain

/-- Every part has a finite plain value. -/
def AllFinite (e : Expr) : Prop := ∀ part ∈ e.parts, isFinite part.plain = true

instance : DecidablePred AllFinite := fun e => inferInstanceAs (Decidable (∀ part ∈ e.parts, isFinite part.plain = true))

variable {op : BinaryOp} {e l r : Expr}

theorem allFinite_number {v : Float} : (number v).AllFinite ↔ isFinite v = true := List.forall_mem_singleton

theorem allFinite_neg : (neg e).AllFinite ↔ isFinite (neg e).plain = true ∧ e.AllFinite := List.forall_mem_cons

theorem allFinite_binary :
    (binary op l r).AllFinite ↔ isFinite (binary op l r).plain = true ∧ l.AllFinite ∧ r.AllFinite := by
  rw [AllFinite, parts, List.forall_mem_cons, List.forall_mem_append]
  rfl

/-- Evaluation stops at the first part without a finite value, and computes the plain value otherwise. -/
theorem eval_eq (e : Expr) : e.eval = if e.AllFinite then .ok e.plain else .error .nonFinite := by
  induction e with
  | number v =>
    by_cases h : isFinite v = true <;> simp [allFinite_number, h, eval, finite, plain]
  | neg e ih =>
    -- What `finite` checks here is the plain value of this node; the operand's was checked before.
    show e.eval.bind (fun x => finite (-x)) = _
    rw [ih]
    by_cases h : e.AllFinite <;> simp [allFinite_neg, h, Except.bind, finite, plain]
  | binary op l r ihl ihr =>
    show l.eval.bind (fun x => r.eval.bind fun y => finite (op.apply x y)) = _
    rw [ihl, ihr]
    by_cases hl : l.AllFinite <;> by_cases hr : r.AllFinite <;>
      simp [allFinite_binary, hl, hr, Except.bind, finite, plain]

/-- Where there is a value, all parts have a finite one. -/
theorem allFinite_of_eval {x : Float} (h : e.eval = .ok x) : e.AllFinite ∧ e.plain = x := by
  rw [eval_eq] at h
  split at h
  · next hall => exact ⟨hall, Except.ok.inj h⟩
  · cases h

theorem self_mem_parts (e : Expr) : e ∈ e.parts := by
  cases e <;> exact List.mem_cons_self

/-- An expression has a value exactly if the plain value of every part is finite, and then its own plain value is the
value. In every other case the error is that something is not finite, even where the operations around that part lead
back to a finite number. -/
theorem eval_finite_throughout (e : Expr) :
    (∀ v, e.eval = .ok v ↔ (∀ part ∈ e.parts, isFinite part.plain = true) ∧ v = e.plain) ∧
    ∀ err, e.eval = .error err ↔ err = .nonFinite ∧ ∃ part ∈ e.parts, isFinite part.plain = false := by
  have hnot : ¬e.AllFinite ↔ ∃ part ∈ e.parts, isFinite part.plain = false := by
    simp [AllFinite]
  rw [← hnot, eval_eq]
  by_cases h : e.AllFinite
  · rw [if_pos h]
    refine ⟨fun v => ?_, fun err => ?_⟩
    · rw [Except.ok.injEq, eq_comm]
      exact (and_iff_right h).symm
    · exact iff_of_false nofun fun herr => herr.2 h
  · rw [if_neg h]
    refine ⟨fun v => ?_, fun err => ?_⟩
    · exact iff_of_false nofun fun hv => h hv.1
    · rw [Except.error.injEq, eq_comm, and_iff_left h]

/-- A quotient by infinity is zero, and yet it is no value. -/
example : isFinite (binary .div (number 1) (binary .div (number 1) (number 0))).plain = true ∧
    ¬(binary .div (number 1) (binary .div (number 1) (number 0))).AllFinite := by
  decide +kernel

end FormulaBar.Expr
