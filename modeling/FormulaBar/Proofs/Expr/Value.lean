import FormulaBar.Proofs.Expr.Grammar
import FormulaBar.Proofs.Expr.Parts

/-!
# FormulaBar.Proofs.Expr.Value — the numbers of an expression and its value

The leaves of an expression are the numbers among its lexemes, in order (`leaves_of_derives`). They are parts of it, so
an expression has a value only if all of them are finite, and then the value is finite too.
-/

namespace FormulaBar

/-- The number that a lexeme is. -/
def Lexeme.value? : Lexeme → Option Float
  | number v => some v
  | _ => none

namespace Expr

/-- The numbers of an expression from left to right. -/
def leaves : Expr → List Float
  | number v => [v]
  | neg operand => operand.leaves
  | binary _ left right => left.leaves ++ right.leaves

theorem finite_eq_ok {x y : Float} : finite x = .ok y ↔ Binary64.isFinite x = true ∧ x = y := by
  by_cases h : Binary64.isFinite x = true <;> simp [finite, h]

theorem eval_number_eq_ok {v x : Float} : (number v).eval = .ok x ↔ Binary64.isFinite v = true ∧ v = x :=
  finite_eq_ok

theorem eval_neg_eq_ok {e : Expr} {x : Float} :
    (neg e).eval = .ok x ↔ ∃ a, e.eval = .ok a ∧ finite (-a) = .ok x := bind_eq_ok

/-- A value is finite. -/
theorem isFinite_of_eval {e : Expr} {x : Float} (h : e.eval = .ok x) : Binary64.isFinite x = true := by
  obtain ⟨hall, rfl⟩ := allFinite_of_eval h
  exact hall e (self_mem_parts e)

/-- The numbers of an expression are parts of it. -/
theorem number_mem_parts {e : Expr} {v : Float} (h : v ∈ e.leaves) : number v ∈ e.parts := by
  induction e with
  | number w =>
    rw [List.mem_singleton.1 h]
    exact self_mem_parts _
  | neg e ih => exact List.mem_cons_of_mem _ (ih h)
  | binary op l r ihl ihr =>
    refine List.mem_cons_of_mem _ (List.mem_append.2 ?_)
    exact (List.mem_append.1 h).imp ihl ihr

theorem isFinite_leaves_of_eval {e : Expr} {x : Float} (h : e.eval = .ok x) :
    ∀ v ∈ e.leaves, Binary64.isFinite v = true := by
  intro v hv
  exact (allFinite_of_eval h).1 _ (number_mem_parts hv)

end Expr

namespace Parser

variable {limit : Option Nat} {k : Phrase} {d : Nat} {ts : List Lexeme} {e : Expr}

theorem value?_of_additive {t : Lexeme} {op : BinaryOp} (h : t.additive? = some op) : t.value? = none := by
  obtain ⟨rfl, -⟩ | ⟨rfl, -⟩ := Lexeme.additive?_eq_some_iff.1 h <;> rfl

theorem value?_of_multiplicative {t : Lexeme} {op : BinaryOp} (h : t.multiplicative? = some op) :
    t.value? = none := by
  obtain ⟨rfl, -⟩ | ⟨rfl, -⟩ := Lexeme.multiplicative?_eq_some_iff.1 h <;> rfl

/-- The leaves of the tree are the numbers of the row. -/
theorem leaves_of_derives (h : Derives limit k d ts e) : ts.filterMap Lexeme.value? = e.leaves := by
  induction h with
  | sum_single _ ih | product_single _ ih | unsigned _ _ ih | base _ ih => exact ih
  | sum_more _ ht _ ihl ihr =>
    rw [List.filterMap_append, List.filterMap_cons_none (value?_of_additive ht), ihl, ihr]
    rfl
  | product_more _ ht _ ihl ihr =>
    rw [List.filterMap_append, List.filterMap_cons_none (value?_of_multiplicative ht), ihl, ihr]
    rfl
  | plus _ _ ih => exact ih
  | minus _ _ ih => exact ih
  | raised _ _ ihb ihx =>
    rw [List.filterMap_append, List.filterMap_cons_none rfl, ihb, ihx]
    rfl
  | number v => rfl
  | group _ ih =>
    rw [List.filterMap_append, List.filterMap_cons_none rfl, ih]
    exact List.append_nil _

end Parser

end FormulaBar
