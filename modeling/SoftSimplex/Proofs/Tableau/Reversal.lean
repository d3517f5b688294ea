import SoftSimplex.Proofs.Tableau.Feasibility
import SoftSimplex.Proofs.Tableau.Separate

/-!
# Taking a pivot back

A pivot solves the row of a basic symbol for another one, puts the solved form in place of the
symbol that enters, and files it under that symbol. The solved form mentions the symbol that left,
with the reciprocal coefficient, so a second pivot can make it basic again.

The second pivot takes the first one back. The row that is solved twice has the values it had. Any
other row did not mention the symbol that left, so it depends on it through the first replacement
only, and the second replacement undoes just that. Terms may cancel on the way and come back on
other slots, so the forms have the same coefficients but not the same layout. What is noted on the
agenda stays there.

Number zero is no symbol: a form drops terms on it, so the symbol that leaves must have another
number to be mentioned by the solved form.
-/

namespace SoftSimplex

namespace LinearForm

/-- The form has the constant and the coefficients of another one, and stores no zero coefficient
if that one stores none. -/
structure Restores (form other : LinearForm Rat) : Prop where
  constant : form.constant = other.constant
  coefficient : ∀ symbol : Symbol, symbol.isNull = false →
    form.coefficient symbol = other.coefficient symbol
  reduced : other.Reduced → form.Reduced

/-- A form that always has the value of another one restores it. -/
theorem Restores.of_eval {form other : LinearForm Rat}
    (eval : ∀ assignment, form.eval assignment = other.eval assignment)
    (reduced : other.Reduced → form.Reduced) : form.Restores other := by
  have scaled : ∀ assignment, form.eval assignment = 1 * other.eval assignment :=
    fun assignment => by rw [eval, one_mul]
  refine ⟨(constant_of_eval scaled).trans (one_mul _), fun symbol present => ?_, reduced⟩
  exact (coefficient_of_eval scaled (symbol.isNull_eq_false_iff.mp present)).trans (one_mul _)

section Return

variable {form : LinearForm Rat} {entering leaving : Symbol}
  (nonzero : form.coefficient entering ≠ 0) (unmentioned : form.mentions leaving = false)
  (present : leaving.isNull = false)

include nonzero unmentioned present

/-- The solved form mentions the symbol that left. -/
theorem coefficient_isolate_leaving :
    (form.isolate entering leaving).coefficient leaving = 1 / form.coefficient entering := by
  have proper := leaving.isNull_eq_false_iff.mp present
  have apart := id_ne_of_mentions (mentions_of_coefficient_ne_zero nonzero) unmentioned
  rw [coefficient_isolate nonzero leaving proper apart.symm, coefficient_of_not_mentions unmentioned,
    Symbol.under_of_ne_zero proper, Assignment.unit, if_pos rfl, sub_zero]

theorem coefficient_isolate_leaving_ne_zero :
    (form.isolate entering leaving).coefficient leaving ≠ 0 := by
  rw [coefficient_isolate_leaving nonzero unmentioned present]
  exact one_div_ne_zero nonzero

theorem eval_isolate_isolate (assignment : Assignment) :
    ((form.isolate entering leaving).isolate leaving entering).eval assignment =
      form.eval assignment := by
  rw [eval_isolate_of_ne_zero (coefficient_isolate_leaving_ne_zero nonzero unmentioned present),
    eval_isolate_of_ne_zero nonzero, coefficient_isolate_leaving nonzero unmentioned present]
  field_simp
  ring

/-- Solving a form for one symbol and then for the other restores it. -/
theorem restores_isolate_isolate :
    ((form.isolate entering leaving).isolate leaving entering).Restores form :=
  .of_eval (eval_isolate_isolate nonzero unmentioned present)
    fun reduced => (reduced.isolate entering leaving).isolate leaving entering

/-- Replacing the symbol that enters and then the one that left restores a form that did not
mention the latter. -/
theorem restores_substitute_substitute {other : LinearForm Rat}
    (other_unmentioned : other.mentions leaving = false) :
    ((other.substitute entering (form.isolate entering leaving)).substitute leaving
      ((form.isolate entering leaving).isolate leaving entering)).Restores other := by
  refine .of_eval (fun assignment => ?_) fun reduced =>
    (reduced.substitute entering _).substitute leaving _
  have proper := leaving.isNull_eq_false_iff.mp present
  have apart := id_ne_of_mentions (mentions_of_coefficient_ne_zero nonzero) unmentioned
  have gained : (other.substitute entering (form.isolate entering leaving)).coefficient leaving =
      other.coefficient entering * (1 / form.coefficient entering) := by
    rw [coefficient_substitute _ _ _ proper, coefficient_of_not_mentions other_unmentioned,
      coefficient_isolate_leaving nonzero unmentioned present, Symbol.under_unit_of_ne apart,
      sub_zero, zero_add]
  rw [eval_substitute, gained, eval_isolate_isolate nonzero unmentioned present, eval_substitute,
    eval_isolate_of_ne_zero nonzero]
  field_simp
  ring

end Return

end LinearForm

namespace Tableau

/-- The tableau has rows for the same symbols as another one. Its rows and its objective have the
same constants and coefficients, and no zero is stored where there was none. -/
structure Restores (tableau other : Tableau Rat) : Prop where
  symbols : tableau.rows.symbols.Perm other.rows.symbols
  rows : ∀ row ∈ tableau.equations, ∀ before ∈ other.equations, row.1.id = before.1.id →
    row.2.Restores before.2
  objective : tableau.objective.Restores other.objective

theorem rows_symbols {α : Type} (tableau : Tableau α) :
    tableau.rows.symbols = tableau.equations.map Prod.fst := by
  rw [equations, List.map_map]
  rfl

variable {tableau : Tableau Rat} {form : LinearForm Rat} {entering leaving : Symbol}

/-- A symbol with a coefficient in a row of a separate tableau is free. -/
theorem Separate.free_of_coefficient_ne_zero (separate : tableau.Separate)
    {row : Symbol × LinearForm Rat} (member : row ∈ tableau.equations) {symbol : Symbol}
    (nonzero : row.2.coefficient symbol ≠ 0) : tableau.form? symbol = none := by
  obtain ⟨term, occurs, same, _⟩ := LinearForm.exists_term_of_mentions
    (LinearForm.mentions_of_coefficient_ne_zero nonzero)
  rw [← tableau.form?_congr same]
  exact (tableau.separate_iff.mp separate).1 row member term occurs

/-- When the row of the symbol that entered is taken out again, the other rows are left, with the
symbol replaced. -/
theorem equations_discard_exchange_perm (free : tableau.form? entering = none)
    (form : LinearForm Rat) (leaving : Symbol) :
    (((tableau.discard leaving).pivot form entering leaving).discard entering).equations.Perm
      ((tableau.discard leaving).equations.map fun row =>
        (row.1, row.2.substitute entering (form.isolate entering leaving))) := by
  have freed : (tableau.discard leaving).form? entering = none := free_discard free
  have filed := equations_pivot_perm freed form leaving
  have inside := filed.mem_iff.mpr List.mem_cons_self
  exact ((equations_perm_cons_discard inside).symm.trans filed).cons_inv

/-- The rows after a pivot and the one that takes it back. -/
theorem equations_return_perm (member : (leaving, form) ∈ tableau.equations)
    (free : tableau.form? entering = none) :
    ((((tableau.discard leaving).pivot form entering leaving).discard entering).pivot
      (form.isolate entering leaving) leaving entering).equations.Perm
      ((leaving, (form.isolate entering leaving).isolate leaving entering) ::
        (tableau.discard leaving).equations.map fun row =>
          (row.1, (row.2.substitute entering (form.isolate entering leaving)).substitute leaving
            ((form.isolate entering leaving).isolate leaving entering))) := by
  have apart : leaving.id ≠ entering.id := fun same =>
    (tableau.form?_eq_none_iff entering).mp free _ member same
  have freed : (((tableau.discard leaving).pivot form entering leaving).discard entering).form?
      leaving = none :=
    free_discard ((form?_pivot_discard_eq_none_iff form entering leaving leaving).mpr
      ⟨apart, Or.inl rfl⟩)
  refine (equations_pivot_perm freed _ entering).trans (List.Perm.cons _ ?_)
  refine ((equations_discard_exchange_perm free form leaving).map _).trans (List.Perm.of_eq ?_)
  rw [List.map_map]
  rfl

/-- A pivot that is taken back restores a separate tableau. -/
theorem Separate.restores_return (separate : tableau.Separate)
    (member : (leaving, form) ∈ tableau.equations) (present : leaving.isNull = false)
    (nonzero : form.coefficient entering ≠ 0) :
    ((((tableau.discard leaving).pivot form entering leaving).discard entering).pivot
      (form.isolate entering leaving) leaving entering).Restores tableau := by
  have free := separate.free_of_coefficient_ne_zero member nonzero
  have unmentioned : form.mentions leaving = false := separate.rows _ member _ member
  have returned := equations_return_perm member free
  constructor
  · rw [rows_symbols, rows_symbols]
    refine (returned.map Prod.fst).trans (List.Perm.trans (List.Perm.of_eq ?_)
      ((equations_perm_cons_discard member).map Prod.fst).symm)
    rw [List.map_cons, List.map_cons, List.map_map]
    rfl
  · intro row inside before there same
    rcases List.mem_cons.mp (returned.mem_iff.mp inside) with rfl | replaced
    · rw [form_eq_of_id_eq there member same.symm]
      exact LinearForm.restores_isolate_isolate nonzero unmentioned present
    · obtain ⟨earlier, kept, rfl⟩ := List.mem_map.mp replaced
      obtain ⟨was, _⟩ := (mem_equations_discard_iff _ _ _).mp kept
      rw [form_eq_of_id_eq there was same.symm]
      exact LinearForm.restores_substitute_substitute nonzero unmentioned present
        (separate.rows _ member _ was)
  · rw [objective_pivot, objective_discard, objective_pivot, objective_discard]
    exact LinearForm.restores_substitute_substitute nonzero unmentioned present
      (separate.objective _ member)

/-- Over a separate tableau the row of any basic symbol can be taken out and solved for any symbol
that has a coefficient in it. This leaves a separate tableau, and keeps the solutions and the value
of the objective on each of them. Then the same can be done for the symbol that left, which
restores all rows and the objective. -/
theorem pivot_reversible (separate : tableau.Separate)
    (member : (leaving, form) ∈ tableau.equations) (present : leaving.isNull = false)
    (nonzero : form.coefficient entering ≠ 0) :
    ∃ rest, tableau.take? leaving = some (form, rest) ∧
      (rest.pivot form entering leaving).Separate ∧
      (∀ assignment, Solves assignment (rest.pivot form entering leaving) ↔
        Solves assignment tableau) ∧
      (∀ assignment, Solves assignment tableau →
        (rest.pivot form entering leaving).objective.eval assignment =
          tableau.objective.eval assignment) ∧
      ∃ solved rest', (rest.pivot form entering leaving).take? entering = some (solved, rest') ∧
        solved.coefficient leaving ≠ 0 ∧
          (rest'.pivot solved leaving entering).Restores tableau := by
  have found := form?_of_mem member
  have free := separate.free_of_coefficient_ne_zero member nonzero
  refine ⟨tableau.discard leaving, (take?_eq_some_iff _ _ _ _).mpr ⟨found, rfl⟩,
    separate.exchange member free, solves_exchange_iff_of_free found free nonzero,
    fun assignment solves => ?_, form.isolate entering leaving, _,
    (take?_eq_some_iff _ _ _ _).mpr ⟨?_, rfl⟩, ?_, separate.restores_return member present nonzero⟩
  · rw [objective_pivot, objective_discard]
    exact LinearForm.eval_substitute_isolate nonzero _ (solves.under_eq found)
  · rw [form?_pivot, if_pos rfl]
  · exact LinearForm.coefficient_isolate_leaving_ne_zero nonzero (separate.rows _ member _ member)
      present

/-- The row of the slack symbol that leaves the cancelling tableau. -/
def cancellingForm : LinearForm Rat :=
  ((LinearForm.ofConstant 3).plus ⟨2, .slack⟩ (-2)).plus ⟨3, .error⟩ 1

/-- When the first slack symbol leaves for the second one, the error symbol cancels in the row of
the external symbol. -/
def cancelling : Tableau Rat where
  rows := (SlotTable.empty.insert ⟨1, .slack⟩ ⟨cancellingForm, false⟩).insert ⟨4, .external⟩
    ⟨((LinearForm.ofConstant (-2)).plus ⟨2, .slack⟩ 2).plus ⟨3, .error⟩ (-1), false⟩
  objective := (LinearForm.ofConstant 5).plus ⟨2, .slack⟩ 4
  agenda := Agenda.clear

/-- The error symbol is gone after the pivot, and comes back when the pivot is taken back. -/
theorem pivot_reversible_cancelling :
    ∃ rest, cancelling.take? ⟨1, .slack⟩ = some (cancellingForm, rest) ∧
      (((rest.pivot cancellingForm ⟨2, .slack⟩ ⟨1, .slack⟩).form? ⟨4, .external⟩).map
        fun form => form.mentions ⟨3, .error⟩) = some false ∧
      ∃ solved rest', (rest.pivot cancellingForm ⟨2, .slack⟩ ⟨1, .slack⟩).take? ⟨2, .slack⟩ =
          some (solved, rest') ∧
        (rest'.pivot solved ⟨1, .slack⟩ ⟨2, .slack⟩).Restores cancelling := by
  have separate : cancelling.Separate := ⟨by decide +kernel, by decide +kernel⟩
  have member : (⟨1, .slack⟩, cancellingForm) ∈ cancelling.equations :=
    List.mem_cons_of_mem _ List.mem_cons_self
  have nonzero : cancellingForm.coefficient ⟨2, .slack⟩ ≠ 0 := by decide +kernel
  obtain ⟨rest, taken, _, _, _, solved, rest', taken', _, restores⟩ :=
    pivot_reversible separate member rfl nonzero
  obtain ⟨_, rfl⟩ := (take?_eq_some_iff _ _ _ _).mp taken
  exact ⟨_, taken, by decide +kernel, solved, rest', taken', restores⟩

end Tableau

end SoftSimplex
