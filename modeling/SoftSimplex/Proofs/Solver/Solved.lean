import SoftSimplex.Proofs.Solver.Solution

/-!
# Solved values

While no live required equality is taken out of the tableau, all live required equalities are
exact. With nonnegative strengths on top of that the solved values are optimal. Taking out one of
several equalities that follow from each other can move the others: the row of a dummy is then no
longer held at zero.
-/

namespace SoftSimplex

variable {discipline : Discipline} {kinds : Nat → Symbol.Kind} {offset : Nat → Rat}
  {solver : Solver Rat} {issued : Nat → Prop} {key : Symbol} {constraint : Constraint Rat}
  {course : Course Rat}

/-- A grounded tableau gives every dummy the value zero. -/
theorem Tableau.Grounded.value_dummy {tableau : Tableau Rat} {allowed : Symbol → Prop}
    (grounded : tableau.Grounded allowed) (regular : tableau.Regular kinds) {symbol : Symbol}
    (proper : symbol.Proper kinds) (is_dummy : symbol.isDummy = true) :
    tableau.value symbol = 0 := by
  cases found : tableau.form? symbol with
  | none => exact Tableau.value_of_not_basic found
  | some form =>
      rw [Tableau.value_of_form? found]
      exact (grounded _ (regular.mem_equations proper found) is_dummy).1

namespace Solver

/-- A live required equality stands in the ledger as it was written. -/
theorem Editing.mem_of_firm (editing : solver.Editing issued (fun _ => False) offset)
    (found : solver.constraints.get? key = some constraint) (active : constraint.isActive = true)
    (required : constraint.strength.isRequired = true) :
    constraint ∈ solver.constraints.ledger offset := by
  have member := Catalog.mem_ledger found active offset
  rwa [editing.offset_of_idle found (Or.inr required), constraint.lowered_zero] at member

/-- The value of the marker is what a required equality is missed by. -/
theorem Standing.eval_add_marker (standing : solver.Standing discipline kinds offset)
    (member : constraint ∈ solver.constraints.ledger offset)
    (relation : constraint.relation = some .equal)
    (required : constraint.strength.isRequired = true) :
    constraint.expression.eval solver.solution +
      solver.tableau.value constraint.markers.marker = 0 := by
  have fit := standing.entries.fit constraint member
  have balanced := (standing.stands.means _).mp
    (standing.stands.regular.solves_complete Assignment.zero) constraint member
  have is_dummy := fit.marker_isDummy_iff.mpr ⟨relation, required⟩
  rw [fit.balance_required required, Markers.sign, if_pos is_dummy, one_mul,
    Tableau.complete_zero] at balanced
  rwa [solution_eq]

/-- No dummy has a value while the solver is steady. -/
theorem Standing.value_marker (standing : solver.Standing discipline kinds offset)
    (steady : discipline.steady) (member : constraint ∈ solver.constraints.ledger offset)
    (relation : constraint.relation = some .equal)
    (required : constraint.strength.isRequired = true) :
    solver.tableau.value constraint.markers.marker = 0 := by
  have fit := standing.entries.fit constraint member
  exact (standing.restful.grounded steady).value_dummy standing.stands.regular
    fit.markers.marker_proper (fit.marker_isDummy_iff.mpr ⟨relation, required⟩)

end Solver

/-- A live required equality is missed by the value of its marker. So it is exact if and only if
the marker has the value zero, and it is exact in every history in which no live required equality
was taken out. -/
theorem required_equality_missed_by_marker (reached : course.Reached discipline)
    (found : course.solver.constraints.get? key = some constraint)
    (active : constraint.isActive = true) (relation : constraint.relation = some .equal)
    (required : constraint.strength.isRequired = true) :
    (constraint.expression.eval course.solver.solution = 0 ↔
        course.solver.tableau.value constraint.markers.marker = 0) ∧
      (discipline.steady → constraint.expression.eval course.solver.solution = 0) := by
  obtain ⟨kinds, offset, standing, editing⟩ := reached.settled
  have member := editing.mem_of_firm found active required
  have balance := standing.eval_add_marker member relation required
  refine ⟨⟨fun vanishes => ?_, fun no_value => ?_⟩, fun steady => ?_⟩
  · rwa [vanishes, zero_add] at balance
  · rwa [no_value, add_zero] at balance
  · rwa [standing.value_marker steady member relation required, add_zero] at balance

/-- The same equality twice, and a bound that it respects. -/
def twinned : Course Rat :=
  (Course.start 0 {}).follow 20 (.createVariable :: Command.bound 1 .equal 5 ++
    Command.bound 2 .equal 5 ++ Command.bound 3 .atMost 8)

theorem reached_twinned : twinned.Reached ⟨true, true⟩ :=
  (Course.Arises.start 0 {}).follow (by decide +kernel)

/-- The second of the two equalities. -/
def twin : Constraint Rat :=
  (twinned.solver.constraints.get? ⟨2, .external⟩).get (by decide +kernel)

theorem found_twin : twinned.solver.constraints.get? ⟨2, .external⟩ = some twin :=
  (Option.some_get _).symm

theorem twin_missed_by_marker :
    (twin.expression.eval twinned.solver.solution = 0 ↔
        twinned.solver.tableau.value twin.markers.marker = 0) ∧
      ((⟨true, true⟩ : Discipline).steady → twin.expression.eval twinned.solver.solution = 0) :=
  required_equality_missed_by_marker reached_twinned found_twin (by decide +kernel)
    (by decide +kernel) (by decide +kernel)

/-- The course after the first equality has been withdrawn. -/
def parted : Course Rat := twinned.follow 20 [.withdrawConstraint ⟨1, 0⟩]

/-- The equality that is left. -/
def remaining : Constraint Rat :=
  (parted.solver.constraints.get? ⟨2, .external⟩).get (by decide +kernel)

theorem found_remaining : parted.solver.constraints.get? ⟨2, .external⟩ = some remaining :=
  (Option.some_get _).symm

theorem reached_parted : parted.Reached ⟨false, false⟩ :=
  ((Course.Arises.start 0 {}).follow (by decide +kernel) : twinned.Reached ⟨false, false⟩).follow
    (by decide +kernel)

/-- Nothing but the bound holds the variable any longer, and the equality that is left is missed
by three. -/
theorem required_equality_missed :
    ¬ ∀ course : Course Rat, course.Reached ⟨false, false⟩ → ∀ key constraint,
      course.solver.constraints.get? key = some constraint → constraint.isActive = true →
        constraint.relation = some .equal → constraint.strength.isRequired = true →
          constraint.expression.eval course.solver.solution = 0 := fun always =>
  have vanishes := always parted reached_parted ⟨2, .external⟩ remaining found_remaining
    (by decide +kernel) (by decide +kernel) (by decide +kernel)
  absurd vanishes (by decide +kernel)

/-- In every history in which no strength was negative and no live required equality was taken out,
the solved values meet all live required constraints, and among the assignments that do so none
misses the others at a lower price. -/
theorem solution_optimal (reached : course.Reached ⟨true, true⟩) :
    Ledger.Optimal course.solver.live course.solver.solution := by
  obtain ⟨kinds, offset, standing, editing⟩ := reached.settled
  exact standing.optimal editing rfl rfl

/-- A variable between two bounds that is pulled beyond the upper one. -/
def pulled : Course Rat :=
  (Course.start 0 {}).follow 20 (.createVariable :: Command.bound 1 .atLeast 1 ++
    Command.bound 2 .atMost 10 ++ [.beginEdit ⟨1, 0⟩ .strong, .suggest ⟨1, 0⟩ 12])

theorem pulled_optimal : Ledger.Optimal pulled.solver.live pulled.solver.solution ∧
    pulled.solver.solution 1 = 10 ∧ Ledger.cost pulled.solver.live pulled.solver.solution = 2000000 :=
  ⟨solution_optimal ((Course.Arises.start 0 {}).follow (by decide +kernel)), by decide +kernel,
    by decide +kernel⟩

end SoftSimplex
