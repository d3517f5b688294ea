import Mathlib.Algebra.BigOperators.Group.List.Basic
import Mathlib.Algebra.Order.Field.Rat
import Mathlib.Data.List.Perm.Basic
import Mathlib.Tactic.FieldSimp
import Mathlib.Tactic.Linarith
import Mathlib.Tactic.Ring
import SoftSimplex.LinearForm
import SoftSimplex.Scalar.Rational
import SoftSimplex.SlotTable.Entries

/-!
# The value of a linear form

An assignment gives a number to every symbol. Under exact arithmetic each operation on linear
forms does to their values what its name says. The coefficient of a symbol is the amount by
which the value of the form grows with the symbol, so equations between values determine the
coefficients.
-/

namespace SoftSimplex

/-- A number for every symbol, given by the symbol's number. -/
abbrev Assignment := Nat → Rat

namespace Assignment

/-- All symbols are zero. -/
def zero : Assignment := fun _ => 0

/-- One symbol is one and all others are zero. -/
def unit (id : Nat) : Assignment := fun other => if other = id then 1 else 0

/-- The assignment with another number for one symbol. -/
def set (assignment : Assignment) (id : Nat) (number : Rat) : Assignment :=
  fun other => if other = id then number else assignment other

@[simp]
theorem set_same (assignment : Assignment) (id : Nat) (number : Rat) :
    assignment.set id number id = number := if_pos rfl

theorem set_of_ne (assignment : Assignment) {id other : Nat} (apart : other ≠ id)
    (number : Rat) : assignment.set id number other = assignment other := if_neg apart

@[simp]
theorem set_self (assignment : Assignment) (id : Nat) :
    assignment.set id (assignment id) = assignment := by
  funext other
  unfold set
  split
  · rename_i same
    rw [same]
  · rfl

end Assignment

/-- The value of a symbol. The absence of a symbol counts as zero. -/
def Symbol.under (symbol : Symbol) (assignment : Assignment) : Rat :=
  if symbol.isNull then 0 else assignment symbol.id

namespace Symbol

@[simp]
theorem under_null (assignment : Assignment) : null.under assignment = 0 := rfl

theorem under_of_ne_zero {symbol : Symbol} (proper : symbol.id ≠ 0) (assignment : Assignment) :
    symbol.under assignment = assignment symbol.id := by
  simp [under, isNull, proper]

theorem under_congr {symbol other : Symbol} (same : symbol.id = other.id)
    (assignment : Assignment) : symbol.under assignment = other.under assignment := by
  simp [under, isNull, same]

@[simp]
theorem under_zero (symbol : Symbol) : symbol.under Assignment.zero = 0 := by
  simp [under, Assignment.zero]

theorem under_set_of_ne {symbol : Symbol} {id : Nat} (apart : symbol.id ≠ id)
    (assignment : Assignment) (number : Rat) :
    symbol.under (assignment.set id number) = symbol.under assignment := by
  simp [under, Assignment.set, apart]

theorem under_unit_of_ne {symbol : Symbol} {id : Nat} (apart : symbol.id ≠ id) :
    symbol.under (Assignment.unit id) = 0 := by
  simp [under, Assignment.unit, apart]

end Symbol

namespace SlotTable

/-- The sum of all filed numbers, each times the value of its symbol. -/
def total (table : SlotTable Rat) (assignment : Assignment) : Rat :=
  (table.entries.map fun filed => filed.2 * filed.1.under assignment).sum

@[simp]
theorem total_empty (assignment : Assignment) : (empty : SlotTable Rat).total assignment = 0 := rfl

@[simp]
theorem total_clear (table : SlotTable Rat) (assignment : Assignment) :
    table.clear.total assignment = 0 := by
  simp [total]

theorem total_congr (table : SlotTable Rat) {assignment other : Assignment}
    (same : ∀ filed ∈ table.entries, filed.1.under assignment = filed.1.under other) :
    table.total assignment = table.total other := by
  unfold total
  refine congrArg List.sum (List.map_congr_left fun filed member => ?_)
  rw [same filed member]

theorem total_erase (table : SlotTable Rat) (symbol : Symbol) (assignment : Assignment) :
    (table.erase symbol).total assignment =
      table.total assignment - (table.get? symbol).getD 0 * symbol.under assignment := by
  cases found : table.get? symbol with
  | none =>
      have apart := (table.get?_eq_none_iff symbol).mp found
      have unchanged : (table.erase symbol).entries = table.entries := by
        rw [entries_erase, List.filter_eq_self]
        intro filed member
        simpa using apart filed member
      simp [total, unchanged]
  | some value =>
      obtain ⟨filed, member, same, rfl⟩ := (table.get?_eq_some_iff symbol value).mp found
      have parts := ((table.entries_perm_cons_erase member).map
        fun filed => filed.2 * filed.1.under assignment).sum_eq
      have erased : (table.erase filed.1).entries = (table.erase symbol).entries := by
        rw [entries_erase, entries_erase, same]
      rw [erased, List.map_cons, List.sum_cons, Symbol.under_congr same] at parts
      simp only [total, Option.getD_some]
      linarith

theorem total_insert (table : SlotTable Rat) (symbol : Symbol) (value : Rat)
    (assignment : Assignment) :
    (table.insert symbol value).total assignment =
      (table.erase symbol).total assignment + value * symbol.under assignment := by
  obtain ⟨key, same, parts⟩ := table.exists_entries_insert_perm symbol value
  have sums := (parts.map fun filed => filed.2 * filed.1.under assignment).sum_eq
  rw [List.map_cons, List.sum_cons, Symbol.under_congr same] at sums
  simp only [total]
  linarith

/-- The number filed under a symbol is the total for the symbol's unit. -/
theorem total_unit (table : SlotTable Rat) {symbol : Symbol} (proper : symbol.id ≠ 0) :
    table.total (Assignment.unit symbol.id) = (table.get? symbol).getD 0 := by
  have erased := table.total_erase symbol (Assignment.unit symbol.id)
  have rest : (table.erase symbol).total (Assignment.unit symbol.id) = 0 := by
    refine List.sum_eq_zero fun number member => ?_
    obtain ⟨filed, inside, rfl⟩ := List.mem_map.mp member
    rw [entries_erase, List.mem_filter] at inside
    rw [Symbol.under_unit_of_ne (by simpa using inside.2), mul_zero]
  have one : symbol.under (Assignment.unit symbol.id) = 1 := by
    simp [Symbol.under, Symbol.isNull, proper, Assignment.unit]
  rw [rest, one] at erased
  linarith

theorem total_map_mul (table : SlotTable Rat) (factor : Rat) (assignment : Assignment) :
    (table.map (· * factor)).total assignment = table.total assignment * factor := by
  simp only [total, entries_map, List.map_map]
  induction table.entries with
  | nil => simp
  | cons filed rest inductionHypothesis =>
      simp only [List.map_cons, List.sum_cons, Function.comp_apply, inductionHypothesis]
      ring

end SlotTable

namespace LinearForm

/-- The constant plus every coefficient times the value of its symbol. -/
def eval (form : LinearForm Rat) (assignment : Assignment) : Rat :=
  form.constant + form.coefficients.total assignment

theorem eval_eq (form : LinearForm Rat) (assignment : Assignment) :
    form.eval assignment =
      form.constant + (form.terms.map fun term => term.2 * term.1.under assignment).sum := rfl

@[simp]
theorem eval_ofConstant (constant : Rat) (assignment : Assignment) :
    (ofConstant constant).eval assignment = constant := by
  simp [eval, ofConstant]

@[simp]
theorem eval_zero (form : LinearForm Rat) : form.eval Assignment.zero = form.constant := by
  simp [eval, SlotTable.total]

@[simp]
theorem eval_cleared (form : LinearForm Rat) (assignment : Assignment) :
    form.cleared.eval assignment = 0 := by
  simp only [eval, cleared, SlotTable.total_clear, add_zero]

theorem eval_without (form : LinearForm Rat) (symbol : Symbol) (assignment : Assignment) :
    (form.without symbol).eval assignment =
      form.eval assignment - form.coefficient symbol * symbol.under assignment := by
  have erased := form.coefficients.total_erase symbol assignment
  simp only [eval, without, erased, coefficient, coefficient?]
  ring_nf

theorem eval_scale (form : LinearForm Rat) (factor : Rat) (assignment : Assignment) :
    (form.scale factor).eval assignment = form.eval assignment * factor := by
  have scaled := form.coefficients.total_map_mul factor assignment
  change form.constant * factor + (form.coefficients.map (· * factor)).total assignment = _
  rw [scaled, eval]
  ring

/-- A coefficient that cancels may be dropped because it contributes nothing. -/
theorem eval_plus (form : LinearForm Rat) (symbol : Symbol) (amount : Rat)
    (assignment : Assignment) :
    (form.plus symbol amount).eval assignment =
      form.eval assignment + amount * symbol.under assignment := by
  by_cases isNull : symbol.isNull
  · simp [plus, isNull, Symbol.under]
  · have erased := form.coefficients.total_erase symbol assignment
    have inserted := form.coefficients.total_insert symbol (form.coefficient symbol + amount)
      assignment
    have current : form.coefficient symbol = (form.coefficients.get? symbol).getD 0 := rfl
    by_cases cancels : form.coefficient symbol + amount = 0
    · have dropped := (form.coefficients.insert symbol
        (form.coefficient symbol + amount)).total_erase symbol assignment
      rw [SlotTable.get?_insert, if_pos rfl, Option.getD_some] at dropped
      have negligible : Scalar.negligible (form.coefficient symbol + amount) = true :=
        decide_eq_true cancels
      simp only [plus, isNull, Bool.false_eq_true, if_false, negligible, if_true, eval]
      change form.constant +
        ((form.coefficients.insert symbol (form.coefficient symbol + amount)).erase symbol).total
          assignment = _
      rw [dropped, inserted, erased, ← current]
      have total : amount = -form.coefficient symbol := by linarith
      rw [total]
      ring
    · have kept : Scalar.negligible (form.coefficient symbol + amount) = false :=
        decide_eq_false cancels
      simp only [plus, isNull, Bool.false_eq_true, if_false, kept, eval]
      change form.constant +
        (form.coefficients.insert symbol (form.coefficient symbol + amount)).total assignment = _
      rw [inserted, erased, ← current]
      ring

theorem eval_plusTerms (form : LinearForm Rat) (terms : List (Symbol × Rat)) (factor : Rat)
    (assignment : Assignment) :
    (form.plusTerms terms factor).eval assignment = form.eval assignment +
      factor * (terms.map fun term => term.2 * term.1.under assignment).sum := by
  unfold plusTerms
  induction terms generalizing form with
  | nil => simp
  | cons term rest inductionHypothesis =>
      rw [List.foldl_cons, inductionHypothesis, eval_plus, List.map_cons, List.sum_cons]
      ring

theorem eval_plusMultiple (form other : LinearForm Rat) (factor : Rat)
    (assignment : Assignment) :
    (form.plusMultiple other factor).eval assignment =
      form.eval assignment + other.eval assignment * factor := by
  unfold plusMultiple
  rw [eval_plusTerms, eval_eq other]
  simp only [eval]
  ring

theorem coefficient_of_eq_some {form : LinearForm Rat} {symbol : Symbol} {coefficient : Rat}
    (found : form.coefficient? symbol = some coefficient) :
    form.coefficient symbol = coefficient := by
  simp [LinearForm.coefficient, found]

theorem coefficient_of_eq_none {form : LinearForm Rat} {symbol : Symbol}
    (absent : form.coefficient? symbol = none) : form.coefficient symbol = 0 := by
  simp [LinearForm.coefficient, absent]

/-- Replacing a symbol changes the value by as much as the definition differs from the symbol. -/
theorem eval_substitute (form : LinearForm Rat) (symbol : Symbol)
    (definition : LinearForm Rat) (assignment : Assignment) :
    (form.substitute symbol definition).eval assignment = form.eval assignment +
      form.coefficient symbol * (definition.eval assignment - symbol.under assignment) := by
  cases found : form.coefficient? symbol with
  | none => simp [substitute, found, coefficient_of_eq_none found]
  | some coefficient =>
      simp only [substitute, found, eval_plusMultiple, eval_without,
        coefficient_of_eq_some found]
      ring

/-- The solved form gives the entering symbol the value that makes the equation hold. -/
theorem eval_isolate {form : LinearForm Rat} {entering : Symbol} {coefficient : Rat}
    (found : form.coefficient? entering = some coefficient) (nonzero : coefficient ≠ 0)
    (leaving : Symbol) (assignment : Assignment) :
    (form.isolate entering leaving).eval assignment = entering.under assignment +
      (leaving.under assignment - form.eval assignment) / coefficient := by
  simp only [isolate, found]
  rw [eval_plus, eval_scale, eval_without, coefficient_of_eq_some found]
  change (form.eval assignment - coefficient * entering.under assignment) * -(1 / coefficient) +
    1 / coefficient * leaving.under assignment = _
  field_simp
  ring

/-- The coefficient of a symbol is the growth of the value with the symbol. -/
theorem coefficient_eq (form : LinearForm Rat) {symbol : Symbol} (proper : symbol.id ≠ 0) :
    form.coefficient symbol = form.eval (Assignment.unit symbol.id) - form.constant := by
  rw [eval, form.coefficients.total_unit proper]
  simp [coefficient, coefficient?]

/-- Equations between values hold between constants. -/
theorem constant_of_eval {form other : LinearForm Rat} {factor : Rat}
    (eval : ∀ assignment, form.eval assignment = factor * other.eval assignment) :
    form.constant = factor * other.constant := by
  rw [← form.eval_zero, ← other.eval_zero, eval]

/-- Equations between values hold between coefficients. -/
theorem coefficient_of_eval {form other : LinearForm Rat} {factor : Rat}
    (eval : ∀ assignment, form.eval assignment = factor * other.eval assignment) {symbol : Symbol}
    (proper : symbol.id ≠ 0) :
    form.coefficient symbol = factor * other.coefficient symbol := by
  rw [form.coefficient_eq proper, other.coefficient_eq proper, eval, constant_of_eval eval]
  ring

/-- Changing the number of one symbol. -/
theorem eval_set (form : LinearForm Rat) {symbol : Symbol} (proper : symbol.id ≠ 0)
    (assignment : Assignment) (number : Rat) :
    form.eval (assignment.set symbol.id number) = form.eval assignment +
      form.coefficient symbol * (number - assignment symbol.id) := by
  have before := form.eval_without symbol assignment
  have after := form.eval_without symbol (assignment.set symbol.id number)
  have same : (form.without symbol).eval (assignment.set symbol.id number) =
      (form.without symbol).eval assignment := by
    refine congrArg (form.constant + ·) (SlotTable.total_congr _ fun filed inside => ?_)
    rw [without, SlotTable.entries_erase, List.mem_filter] at inside
    rw [Symbol.under_set_of_ne (by simpa using inside.2)]
  rw [Symbol.under_of_ne_zero proper] at before after
  rw [Assignment.set_same] at after
  linarith

end LinearForm

end SoftSimplex
