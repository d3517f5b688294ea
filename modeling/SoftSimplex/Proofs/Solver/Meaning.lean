import Mathlib.Algebra.Order.Field.Rat
import SoftSimplex.Proofs.Solver.Solved

/-!
# What the tableau says

After every history the rows of the tableau say exactly that the defining equations of the live
constraints hold, and the objective has exactly the coefficients of what the live constraints that
may be missed cost. Neither depends on the strengths being positive, nor on which constraints were
taken out on the way.
-/

namespace SoftSimplex

variable {discipline : Discipline} {kinds : Nat → Symbol.Kind} {offset : Nat → Rat}
  {solver : Solver Rat} {issued : Nat → Prop} {key : Symbol} {constraint : Constraint Rat}
  {course : Course Rat}

namespace Constraint

/-- The defining equation of a live constraint. A required equality adds its dummy to the
expression. Every other constraint takes a surplus or an excess away from it, and adds what is
lacking unless it is required. -/
def Balanced (constraint : Constraint Rat) (assignment : Assignment) : Prop :=
  let expression := constraint.expression.eval assignment
  let marker := constraint.markers.marker.under assignment
  let other := constraint.markers.other.under assignment
  match constraint.relation, constraint.strength.isRequired with
  | some .equal, true => expression + marker = 0
  | _, true => expression - marker = 0
  | _, false => expression - marker + other = 0

theorem Fit.balanced_iff (fit : constraint.Fit kinds) (assignment : Assignment) :
    constraint.Balanced assignment ↔ constraint.balance assignment = 0 := by
  have sign : constraint.markers.sign =
      if constraint.relation = some .equal ∧ constraint.strength.isRequired = true then 1
      else -1 := by
    simp only [Markers.sign, fit.marker_isDummy_iff]
  rw [balance_eq, sign]
  cases required : constraint.strength.isRequired with
  | true =>
      rw [fit.markers.other_absent required, Symbol.under_null, add_zero]
      unfold Balanced
      by_cases equality : constraint.relation = some .equal
      · simp [required, equality]
      · simp [required, equality, sub_eq_add_neg]
  | false =>
      unfold Balanced
      simp [required, sub_eq_add_neg]

/-- Constraints that agree and own the same markers have the same defining equation. -/
theorem Agrees.balanced_iff {other : Constraint Rat} (agrees : constraint.Agrees other)
    (markers : constraint.markers = other.markers) (assignment : Assignment) :
    constraint.Balanced assignment ↔ other.Balanced assignment := by
  unfold Balanced
  rw [agrees.relation, agrees.strength, agrees.eval, markers]

end Constraint

namespace Solver

theorem markers_present (solver : Solver Rat) (id : Nat) (constraint : Constraint Rat) :
    (solver.present id constraint).markers = constraint.markers := by
  unfold present
  split <;> rfl

/-- The live constraints are balanced where the entries of the ledger are. -/
theorem Standing.balanced_live_iff (standing : solver.Standing discipline kinds offset)
    (editing : solver.Editing issued (fun _ => False) offset) (assignment : Assignment) :
    (∀ constraint ∈ solver.live, constraint.Balanced assignment) ↔
      ∀ entry ∈ solver.constraints.ledger offset, entry.balance assignment = 0 := by
  unfold live Catalog.ledger
  simp only [List.forall_mem_map]
  refine forall₂_congr fun entry member => ?_
  have fit := standing.entries.fit _ (List.mem_map_of_mem member)
  rw [(editing.agrees_of_mem member).balanced_iff (solver.markers_present entry.1 entry.2),
    fit.balanced_iff]

end Solver

/-- After every history an assignment satisfies all rows of the tableau if and only if it satisfies
the defining equations of all live constraints, an edit asking that its variable equals the present
target. -/
theorem solves_iff_balanced (reached : course.Reached discipline) (assignment : Assignment) :
    Tableau.Solves assignment course.solver.tableau ↔
      ∀ constraint ∈ course.solver.live, constraint.Balanced assignment := by
  obtain ⟨kinds, offset, standing, editing⟩ := reached.settled
  rw [standing.balanced_live_iff editing]
  exact standing.stands.means assignment

/-- Two equalities of which one has been withdrawn, an edit of negative strength whose target was
moved, and a preference of which two copies are left. -/
def mingled : Course Rat :=
  parted.follow 20 [.beginEdit ⟨1, 0⟩ ⟨-3⟩, .suggest ⟨1, 0⟩ 4,
    .copyConstraint ⟨3, 0⟩ ⟨7⟩, .addConstraint ⟨5, 0⟩, .copyConstraint ⟨2, 0⟩ ⟨2⟩,
    .addConstraint ⟨6, 0⟩, .setStrength ⟨6, 0⟩ ⟨5⟩]

theorem reached_mingled : mingled.Reached ⟨false, false⟩ :=
  reached_parted.follow (by decide +kernel)

theorem solves_mingled_iff_balanced :
    Tableau.Solves mingled.solver.solution mingled.solver.tableau ↔
      ∀ constraint ∈ mingled.solver.live, constraint.Balanced mingled.solver.solution :=
  solves_iff_balanced reached_mingled mingled.solver.solution

/-- The coefficient of a symbol in another one, once that one has been replaced by its row if it is
basic. -/
def Tableau.share (tableau : Tableau Rat) (replaced symbol : Symbol) : Rat :=
  match tableau.form? replaced with
  | some form => form.coefficient symbol
  | none => if replaced.id = symbol.id then 1 else 0

namespace Constraint

/-- The amounts by which a constraint that may be missed can be missed: both markers of an
equality, and the second one of an inequality. -/
def shortfalls (constraint : Constraint Rat) : List Symbol :=
  match constraint.relation with
  | some .equal => [constraint.markers.marker, constraint.markers.other]
  | _ => [constraint.markers.other]

/-- What a unit of a symbol adds to the price of the constraint. -/
def pricePer (tableau : Tableau Rat) (symbol : Symbol) (constraint : Constraint Rat) : Rat :=
  constraint.strength.weight *
    (constraint.shortfalls.map fun missed => tableau.share missed symbol).sum

theorem Fit.errors_of_soft (fit : constraint.Fit kinds)
    (soft : constraint.strength.isRequired = false) :
    constraint.markers.errors = constraint.shortfalls := by
  have kind := fit.markers.marker_kind
  rw [soft] at kind
  have other_error := fit.other_isError soft
  have is_error : constraint.markers.marker.isError = true ↔
      constraint.relation = some .equal := by
    rw [Symbol.isError, Symbol.isOf_eq_true_iff, kind]
    simp only [Markers.markerKind, ne_eq, fit.markers.marker_proper.1, not_false_eq_true, true_and]
    split <;> simp_all
  unfold Markers.errors shortfalls
  split
  · rename_i equality
    rw [List.filter_eq_self]
    simp [other_error, is_error.mpr equality]
  · rename_i inequality
    have no_error : constraint.markers.marker.isError = false := by
      rw [← Bool.not_eq_true, is_error]
      exact inequality
    simp [other_error, no_error]

theorem Fit.errors_of_required (fit : constraint.Fit kinds)
    (required : constraint.strength.isRequired = true) : constraint.markers.errors = [] := by
  have kind := fit.markers.marker_kind
  have no_error : constraint.markers.marker.isError = false := by
    rw [Symbol.isError, ← Bool.not_eq_true, Symbol.isOf_eq_true_iff, kind, required]
    simp only [Markers.markerKind]
    split <;> simp_all
  have null_no_error : Symbol.null.isError = false := rfl
  simp [Markers.errors, fit.markers.other_absent required, no_error, null_no_error]

end Constraint

namespace Solver

/-- The live constraints that may be missed. -/
def liveSoft (solver : Solver Rat) : List (Constraint Rat) :=
  solver.live.filter fun constraint => !constraint.strength.isRequired

/-- What a unit of a symbol adds to the price of all live constraints that may be missed. -/
def pricePer (solver : Solver Rat) (symbol : Symbol) : Rat :=
  (solver.liveSoft.map (Constraint.pricePer solver.tableau symbol)).sum

end Solver

namespace Tableau

variable {tableau : Tableau Rat}

/-- Where all free symbols but one are zero, and that one is one, every symbol has grown by its
share. -/
theorem share_eq {replaced symbol : Symbol} (given : symbol.id ≠ 0) :
    tableau.share replaced symbol =
      tableau.complete (Assignment.unit symbol.id) replaced.id -
        tableau.complete Assignment.zero replaced.id := by
  unfold share
  cases found : tableau.form? replaced with
  | some form =>
      rw [complete_of_form? found, complete_of_form? found, LinearForm.eval_zero]
      exact form.coefficient_eq given
  | none =>
      rw [complete_of_free found, complete_of_free found]
      simp [Assignment.unit, Assignment.zero]

/-- Nothing has a share of a basic symbol other than the symbol itself. -/
theorem Regular.share_of_basic (regular : tableau.Regular kinds) {replaced symbol : Symbol}
    {row : LinearForm Rat} (basic : tableau.form? symbol = some row) :
    tableau.share replaced symbol = 0 := by
  unfold share
  cases found : tableau.form? replaced with
  | some form =>
      exact LinearForm.coefficient_of_not_mentions
        ((regular.settled_of_form? found).mentions_basic basic)
  | none =>
      dsimp only
      rw [if_neg]
      intro same
      rw [tableau.form?_congr same, basic] at found
      exact Option.some_ne_none _ found

/-- The growth of a constraint's price with a free symbol. -/
theorem price_growth (fit : constraint.Fit kinds) {symbol : Symbol} (proper : symbol.id ≠ 0) :
    constraint.price (tableau.complete (Assignment.unit symbol.id)) =
      constraint.price (tableau.complete Assignment.zero) +
        if constraint.strength.isRequired then 0
        else Constraint.pricePer tableau symbol constraint := by
  unfold Constraint.price Constraint.missed Constraint.pricePer
  cases required : constraint.strength.isRequired with
  | true => simp [fit.errors_of_required required]
  | false =>
      rw [← fit.errors_of_soft required, if_neg Bool.false_ne_true, ← mul_add,
        ← List.sum_map_add]
      refine congrArg (fun terms => constraint.strength.weight * List.sum terms)
        (List.map_congr_left fun missed member => ?_)
      have missed_proper := (fit.mem_errors member).1.1
      rw [share_eq proper, Symbol.under_of_ne_zero missed_proper,
        Symbol.under_of_ne_zero missed_proper]
      ring

/-- A tableau that prices a ledger has the ledger's prices for coefficients. -/
theorem Stands.objective_coefficient {ledger : Ledger} (stands : tableau.Stands kinds ledger ledger)
    (entries : Ledger.Regular kinds ledger) {symbol : Symbol} (proper : symbol.id ≠ 0) :
    tableau.objective.coefficient symbol =
      (ledger.map fun entry => if entry.strength.isRequired then 0
        else Constraint.pricePer tableau symbol entry).sum := by
  have regular := stands.regular
  cases basic : tableau.form? symbol with
  | some row =>
      rw [LinearForm.coefficient_of_not_mentions (regular.objective_settled.mentions_basic basic)]
      refine (List.sum_eq_zero fun number member => ?_).symm
      obtain ⟨entry, _, rfl⟩ := List.mem_map.mp member
      split
      · rfl
      · simp [Constraint.pricePer, regular.share_of_basic basic]
  | none =>
      -- Objective and price differ by a constant, so they grow alike with the symbol.
      obtain ⟨drift, priced⟩ := stands.prices
      have grown := priced _ (regular.solves_complete (Assignment.unit symbol.id))
      have start := priced _ (regular.solves_complete Assignment.zero)
      rw [regular.objective_settled.eval_complete] at grown start
      rw [LinearForm.coefficient_eq _ proper, ← LinearForm.eval_zero, grown, start,
        add_sub_add_left_eq_sub, sub_eq_iff_eq_add', Ledger.price, Ledger.price,
        ← List.sum_map_add]
      exact congrArg List.sum (List.map_congr_left fun entry member =>
        price_growth (entries.fit entry member) proper)

end Tableau

namespace Solver

/-- What entries cost depends neither on how they are written nor on targets. -/
theorem pricePer_eq (solver : Solver Rat) (offset : Nat → Rat) (symbol : Symbol) :
    solver.pricePer symbol =
      ((solver.constraints.ledger offset).map fun entry => if entry.strength.isRequired then 0
        else Constraint.pricePer solver.tableau symbol entry).sum := by
  unfold pricePer liveSoft live Catalog.ledger
  rw [List.map_map]
  induction solver.constraints.listing.filter fun entry => entry.2.isActive with
  | nil => rfl
  | cons first rest inductionHypothesis =>
      have same : ((solver.present first.1 first.2).strength.isRequired =
            (first.2.lowered (offset first.1)).strength.isRequired) ∧
          Constraint.pricePer solver.tableau symbol (solver.present first.1 first.2) =
            Constraint.pricePer solver.tableau symbol (first.2.lowered (offset first.1)) := by
        unfold present
        split <;> exact ⟨rfl, rfl⟩
      simp only [List.map_cons, List.sum_cons, Function.comp_apply, ← inductionHypothesis,
        List.filter_cons, same.1]
      cases (first.2.lowered (offset first.1)).strength.isRequired with
      | true => simp
      | false => simp [same.2]

end Solver

/-- After every history the objective has for each symbol the coefficient that comes of pricing the
missed amounts of all live constraints that may be missed, and replacing basic ones by their rows.
Without such constraints it has no terms. -/
theorem objective_prices_live (reached : course.Reached discipline) :
    (∀ symbol : Symbol, symbol.isNull = false →
      course.solver.tableau.objective.coefficient symbol = course.solver.pricePer symbol) ∧
    (course.solver.liveSoft = [] → course.solver.tableau.objective.terms = []) := by
  obtain ⟨kinds, offset, standing, _⟩ := reached.settled
  have coefficients : ∀ symbol : Symbol, symbol.id ≠ 0 →
      course.solver.tableau.objective.coefficient symbol = course.solver.pricePer symbol := by
    intro symbol proper
    rw [standing.stands.objective_coefficient standing.entries proper,
      course.solver.pricePer_eq offset]
  refine ⟨fun symbol present => coefficients symbol (by simpa [Symbol.isNull] using present),
    fun none_soft => ?_⟩
  have settled := standing.stands.regular.objective_settled
  refine List.eq_nil_iff_forall_not_mem.mpr fun term member => ?_
  have vanishes := coefficients term.1 (settled.proper term member).1
  rw [LinearForm.coefficient_of_mem member, Solver.pricePer, none_soft] at vanishes
  exact settled.reduced term member vanishes

theorem objective_prices_mingled :
    (∀ symbol : Symbol, symbol.isNull = false →
      mingled.solver.tableau.objective.coefficient symbol = mingled.solver.pricePer symbol) ∧
    (mingled.solver.liveSoft = [] → mingled.solver.tableau.objective.terms = []) :=
  objective_prices_live reached_mingled

end SoftSimplex
