import SoftSimplex.Proofs.Form.Reduced
import SoftSimplex.Proofs.Tableau.Rows

/-!
# Solutions of a tableau

An assignment solves a tableau if every row holds as an equation. In a regular tableau the basic
symbols do not occur in the forms, so every choice of numbers for the free symbols extends to
exactly one solution. What the solutions do not depend on is therefore not mentioned at all.
-/

namespace SoftSimplex

/-- The symbol is not the absent one and bears the kind that a table of kinds gives its
number. -/
def Symbol.Proper (kinds : Nat → Symbol.Kind) (symbol : Symbol) : Prop :=
  symbol.id ≠ 0 ∧ symbol.kind = kinds symbol.id

namespace Symbol.Proper

variable {kinds : Nat → Symbol.Kind} {symbol other : Symbol}

theorem eq_of_id_eq (proper : symbol.Proper kinds) (proper' : other.Proper kinds)
    (same : symbol.id = other.id) : symbol = other := by
  obtain ⟨id, kind⟩ := symbol
  obtain ⟨id', kind'⟩ := other
  obtain rfl : id = id' := same
  have kind_eq : kind = kind' := proper.2.trans proper'.2.symm
  rw [kind_eq]

theorem isNull_eq_false (proper : symbol.Proper kinds) : symbol.isNull = false :=
  symbol.isNull_eq_false_iff.mpr proper.1

theorem isOf_iff (proper : symbol.Proper kinds) (kind : Kind) :
    symbol.isOf kind = true ↔ kinds symbol.id = kind := by
  rw [isOf_eq_true_iff, ← proper.2]
  exact and_iff_right proper.1

end Symbol.Proper

namespace Tableau

/-- Every row holds as an equation. -/
def Solves (assignment : Assignment) (tableau : Tableau Rat) : Prop :=
  ∀ row ∈ tableau.equations, row.1.under assignment = row.2.eval assignment

theorem Solves.under_eq {assignment : Assignment} {tableau : Tableau Rat}
    (solves : Solves assignment tableau) {symbol : Symbol} {form : LinearForm Rat}
    (found : tableau.form? symbol = some form) :
    symbol.under assignment = form.eval assignment := by
  obtain ⟨row, member, same, rfl⟩ := (tableau.form?_eq_some_iff symbol form).mp found
  rw [← solves row member, Symbol.under_congr same]

/-- The symbol is proper and has no row. -/
def Free {α : Type} (kinds : Nat → Symbol.Kind) (tableau : Tableau α) (symbol : Symbol) : Prop :=
  symbol.Proper kinds ∧ tableau.form? symbol = none

/-- The form is reduced and its symbols are free. -/
structure Settled (kinds : Nat → Symbol.Kind) (tableau : Tableau Rat)
    (form : LinearForm Rat) : Prop where
  free : form.Over (tableau.Free kinds)
  reduced : form.Reduced

/-- The rows and the objective are written in free symbols. An external symbol occurs in rows of
external symbols only. -/
structure Regular (kinds : Nat → Symbol.Kind) (tableau : Tableau Rat) : Prop where
  proper : ∀ row ∈ tableau.equations, row.1.Proper kinds
  settled : ∀ row ∈ tableau.equations, tableau.Settled kinds row.2
  confined : ∀ row ∈ tableau.equations, row.1.isExternal = false →
    row.2.Over fun symbol => symbol.isExternal = false
  objective_settled : tableau.Settled kinds tableau.objective
  objective_confined : tableau.objective.Over fun symbol => symbol.isExternal = false

variable {kinds : Nat → Symbol.Kind} {tableau : Tableau Rat}

theorem Settled.mentions_basic {form : LinearForm Rat} (settled : tableau.Settled kinds form)
    {symbol : Symbol} {row : LinearForm Rat} (basic : tableau.form? symbol = some row) :
    form.mentions symbol = false := by
  rw [LinearForm.mentions_eq_false_iff]
  intro term member same
  have free := (settled.free term member).2
  rw [tableau.form?_congr same, basic] at free
  exact Option.some_ne_none _ free

theorem Settled.proper {form : LinearForm Rat} (settled : tableau.Settled kinds form) :
    form.Over (Symbol.Proper kinds) :=
  settled.free.mono fun _ free => free.1

namespace Regular

theorem settled_of_form? (regular : tableau.Regular kinds) {symbol : Symbol}
    {form : LinearForm Rat} (found : tableau.form? symbol = some form) :
    tableau.Settled kinds form := by
  obtain ⟨row, member, _, rfl⟩ := (tableau.form?_eq_some_iff symbol form).mp found
  exact regular.settled row member

/-- A proper symbol that has a row is the symbol of the row. -/
theorem mem_equations (regular : tableau.Regular kinds) {symbol : Symbol}
    (proper : symbol.Proper kinds) {form : LinearForm Rat}
    (found : tableau.form? symbol = some form) : (symbol, form) ∈ tableau.equations := by
  obtain ⟨row, member, same, rfl⟩ := (tableau.form?_eq_some_iff symbol form).mp found
  rw [← (regular.proper row member).eq_of_id_eq proper same]
  exact member

/-- The absent symbol has no row. -/
theorem form?_of_id_eq_zero (regular : tableau.Regular kinds) (symbol : Symbol)
    (absent : symbol.id = 0) : tableau.form? symbol = none := by
  rw [form?_eq_none_iff]
  intro row member same
  exact (regular.proper row member).1 (same.trans absent)

theorem empty (kinds : Nat → Symbol.Kind) : (Tableau.empty : Tableau Rat).Regular kinds where
  proper _ member := absurd member List.not_mem_nil
  settled _ member := absurd member List.not_mem_nil
  confined _ member := absurd member List.not_mem_nil
  objective_settled := ⟨LinearForm.Over.ofConstant 0, LinearForm.Reduced.ofConstant 0⟩
  objective_confined := LinearForm.Over.ofConstant 0

end Regular

/-- The assignment that agrees with a given one on free symbols and gives every basic symbol the
value of its row there. -/
def complete (tableau : Tableau Rat) (given : Assignment) : Assignment := fun id =>
  match tableau.form? ⟨id, .external⟩ with
  | some form => form.eval given
  | none => given id

theorem complete_of_form? {symbol : Symbol} {form : LinearForm Rat}
    (found : tableau.form? symbol = some form) (given : Assignment) :
    tableau.complete given symbol.id = form.eval given := by
  have same : tableau.form? ⟨symbol.id, .external⟩ = some form :=
    (tableau.form?_congr rfl).trans found
  simp [complete, same]

theorem complete_of_free {symbol : Symbol} (free : tableau.form? symbol = none)
    (given : Assignment) : tableau.complete given symbol.id = given symbol.id := by
  have same : tableau.form? ⟨symbol.id, .external⟩ = none :=
    (tableau.form?_congr rfl).trans free
  simp [complete, same]

theorem under_complete_of_free {symbol : Symbol} (free : tableau.form? symbol = none)
    (given : Assignment) : symbol.under (tableau.complete given) = symbol.under given := by
  unfold Symbol.under
  rw [complete_of_free free]

theorem Settled.eval_complete {form : LinearForm Rat} (settled : tableau.Settled kinds form)
    (given : Assignment) : form.eval (tableau.complete given) = form.eval given :=
  LinearForm.eval_congr settled.free fun _ free => under_complete_of_free free.2 given

/-- Completing an assignment solves the tableau. -/
theorem Regular.solves_complete (regular : tableau.Regular kinds) (given : Assignment) :
    Solves (tableau.complete given) tableau := by
  intro row member
  rw [(regular.settled row member).eval_complete, Symbol.under_of_ne_zero
    (regular.proper row member).1, complete_of_form? (form?_of_mem member)]

/-- The solved values are the completion of zero. -/
theorem complete_zero (tableau : Tableau Rat) (symbol : Symbol) :
    tableau.complete Assignment.zero symbol.id = tableau.value symbol := by
  cases found : tableau.form? symbol with
  | none => rw [complete_of_free found, value_of_not_basic found, Assignment.zero]
  | some form => rw [complete_of_form? found, LinearForm.eval_zero, value_of_form? found]

/-- Whether an assignment solves the tableau does not depend on the number of a symbol. -/
def Indifferent (tableau : Tableau Rat) (id : Nat) : Prop :=
  ∀ assignment number, Solves assignment tableau → Solves (assignment.set id number) tableau

/-- A symbol on which the solutions do not depend has no row. -/
theorem Regular.form?_of_indifferent (regular : tableau.Regular kinds) {symbol : Symbol}
    (indifferent : tableau.Indifferent symbol.id) : tableau.form? symbol = none := by
  cases found : tableau.form? symbol with
  | none => rfl
  | some form =>
      have proper : symbol.id ≠ 0 := by
        intro absent
        rw [regular.form?_of_id_eq_zero symbol absent] at found
        exact Option.some_ne_none _ found.symm
      let solution := tableau.complete Assignment.zero
      have solves := regular.solves_complete Assignment.zero
      have moved := indifferent solution (solution symbol.id + 1) solves
      have unmentioned := (regular.settled_of_form? found).mentions_basic found
      have before := solves.under_eq found
      have after := moved.under_eq found
      rw [(LinearForm.over_ne_of_not_mentions unmentioned).eval_set, ← before,
        Symbol.under_of_ne_zero proper, Symbol.under_of_ne_zero proper,
        Assignment.set_same] at after
      linarith

/-- A symbol that can change without changing the value of a settled form is not mentioned. -/
theorem Settled.mentions_eq_false {form : LinearForm Rat} (settled : tableau.Settled kinds form)
    {symbol : Symbol} (proper : symbol.id ≠ 0) (assignment : Assignment) (number : Rat)
    (moved : number ≠ assignment symbol.id)
    (equal : form.eval (assignment.set symbol.id number) = form.eval assignment) :
    form.mentions symbol = false := by
  rw [form.eval_set proper] at equal
  have product : form.coefficient symbol * (number - assignment symbol.id) = 0 := by linarith
  have vanishes := (mul_eq_zero.mp product).resolve_right (sub_ne_zero.mpr moved)
  by_contra mentioned
  exact settled.reduced.coefficient_ne_zero (by simpa using mentioned) vanishes

/-- A symbol on which the solutions do not depend occurs in no row. -/
theorem Regular.mentions_of_indifferent (regular : tableau.Regular kinds) {symbol : Symbol}
    (proper : symbol.id ≠ 0) (indifferent : tableau.Indifferent symbol.id)
    {row : Symbol × LinearForm Rat} (member : row ∈ tableau.equations) :
    row.2.mentions symbol = false := by
  have free := regular.form?_of_indifferent indifferent
  have apart : row.1.id ≠ symbol.id := (tableau.form?_eq_none_iff symbol).mp free row member
  let solution := tableau.complete Assignment.zero
  have solves := regular.solves_complete Assignment.zero
  have moved := indifferent solution (solution symbol.id + 1) solves row member
  rw [Symbol.under_set_of_ne apart, solves row member] at moved
  exact (regular.settled row member).mentions_eq_false proper solution _ (by simp) moved.symm

end Tableau

end SoftSimplex
