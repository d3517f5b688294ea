import Mathlib.Algebra.Order.Field.Rat
import Mathlib.Algebra.Order.Group.MinMax
import SoftSimplex.Proofs.Tableau.Upkeep

/-!
# Satisfying and missing constraints

A constraint holds if its expression vanishes or is not negative, as its relation asks, and it is
missed by the amount that is lacking. On an admissible solution the missed amounts of the markers
cover the amount by which the constraint is missed, and any choice for the variables that meets
the required constraints extends to an admissible solution whose missed amounts are no larger
than that. So the solved values of a feasible tableau with its objective at the least are an
optimal choice for the variables.
-/

namespace SoftSimplex

namespace Constraint

/-- The expression is as the relation asks. -/
def Holds (constraint : Constraint Rat) (assignment : Assignment) : Prop :=
  match constraint.relation with
  | some .equal => constraint.expression.eval assignment = 0
  | _ => 0 ≤ constraint.expression.eval assignment

/-- The amount by which the constraint is missed. -/
def violation (constraint : Constraint Rat) (assignment : Assignment) : Rat :=
  match constraint.relation with
  | some .equal => |constraint.expression.eval assignment|
  | _ => max 0 (-constraint.expression.eval assignment)

/-- What missing the constraint costs. A required constraint may not be missed, and costs
nothing. -/
def cost (constraint : Constraint Rat) (assignment : Assignment) : Rat :=
  if constraint.strength.isRequired then 0
  else constraint.strength.weight * constraint.violation assignment

namespace Fit

variable {kinds : Nat → Symbol.Kind} {constraint : Constraint Rat} {assignment : Assignment}

/-- The marker of a required equality is a dummy, and no other marker is. -/
theorem marker_isDummy_iff (fit : constraint.Fit kinds) :
    constraint.markers.marker.isDummy = true ↔
      constraint.relation = some .equal ∧ constraint.strength.isRequired = true := by
  rw [Symbol.isDummy, Symbol.isOf_eq_true_iff, fit.markers.marker_kind]
  simp only [Markers.markerKind, ne_eq, fit.markers.marker_proper.1, not_false_eq_true, true_and]
  split <;> simp_all

theorem marker_restricted (fit : constraint.Fit kinds)
    (other_kind : ¬ (constraint.relation = some .equal ∧
      constraint.strength.isRequired = true)) :
    constraint.markers.marker.isRestricted = true := by
  refine Symbol.isRestricted_of_internal fit.markers.marker_proper.1 fit.marker_internal ?_
  rw [← Bool.not_eq_true, fit.marker_isDummy_iff]
  exact other_kind

theorem sign_eq (fit : constraint.Fit kinds)
    (other_kind : ¬ (constraint.relation = some .equal ∧
      constraint.strength.isRequired = true)) : constraint.markers.sign = -1 := by
  unfold Markers.sign
  rw [if_neg]
  rw [fit.marker_isDummy_iff]
  exact other_kind

theorem other_isError (fit : constraint.Fit kinds)
    (soft : constraint.strength.isRequired = false) :
    constraint.markers.other.isError = true := by
  obtain ⟨proper, kind⟩ := fit.markers.other_proper soft
  exact (Symbol.isOf_eq_true_iff _ _).mpr ⟨proper.1, kind⟩

theorem balance_required (fit : constraint.Fit kinds)
    (required : constraint.strength.isRequired = true) :
    constraint.balance assignment = constraint.expression.eval assignment +
      constraint.markers.sign * assignment constraint.markers.marker.id := by
  rw [balance_eq, fit.markers.other_absent required, Symbol.under_null, add_zero,
    Symbol.under_of_ne_zero fit.markers.marker_proper.1]

theorem balance_soft (fit : constraint.Fit kinds)
    (soft : constraint.strength.isRequired = false) :
    constraint.balance assignment = constraint.expression.eval assignment -
      assignment constraint.markers.marker.id + assignment constraint.markers.other.id := by
  rw [balance_eq, fit.sign_eq fun both => by rw [soft] at both; exact Bool.noConfusion both.2,
    Symbol.under_of_ne_zero fit.markers.marker_proper.1,
    Symbol.under_of_ne_zero (fit.markers.other_proper soft).1.1]
  ring

theorem missed_required (fit : constraint.Fit kinds)
    (required : constraint.strength.isRequired = true) : constraint.missed assignment = 0 := by
  have marker_no_error : constraint.markers.marker.isError = false := by
    have kind := fit.markers.marker_kind
    rw [required] at kind
    have not_error : constraint.markers.marker.kind ≠ .error := by
      rw [kind]
      unfold Markers.markerKind
      split <;> simp_all
    simp [Symbol.isError, Symbol.isOf, not_error]
  have other_no_error : constraint.markers.other.isError = false := by
    rw [fit.markers.other_absent required]
    rfl
  simp [missed, Markers.errors, marker_no_error, other_no_error]

/-- The missed amounts are those of both directions for an equality and the shortfall for an
inequality. -/
theorem missed_soft (fit : constraint.Fit kinds)
    (soft : constraint.strength.isRequired = false) :
    constraint.missed assignment =
      (if constraint.relation = some .equal then assignment constraint.markers.marker.id else 0) +
        assignment constraint.markers.other.id := by
  have other_proper := (fit.markers.other_proper soft).1
  have other_error := fit.other_isError soft
  have kind := fit.markers.marker_kind
  rw [soft] at kind
  by_cases equality : constraint.relation = some .equal
  · have marker_error : constraint.markers.marker.isError = true := by
      rw [Symbol.isError, Symbol.isOf_eq_true_iff, kind, equality]
      exact ⟨fit.markers.marker_proper.1, rfl⟩
    simp [missed, Markers.errors, marker_error, other_error, equality,
      Symbol.under_of_ne_zero fit.markers.marker_proper.1,
      Symbol.under_of_ne_zero other_proper.1]
  · have marker_no_error : constraint.markers.marker.isError = false := by
      have not_error : constraint.markers.marker.kind ≠ .error := by
        rw [kind]
        unfold Markers.markerKind
        split <;> simp_all
      simp [Symbol.isError, Symbol.isOf, not_error]
    simp [missed, Markers.errors, marker_no_error, other_error, equality,
      Symbol.under_of_ne_zero other_proper.1]

/-- A required constraint holds where it is balanced. -/
theorem holds_of_balanced (fit : constraint.Fit kinds)
    (required : constraint.strength.isRequired = true)
    (admissible : assignment.Admissible kinds) (balanced : constraint.balance assignment = 0) :
    constraint.Holds assignment := by
  rw [fit.balance_required required] at balanced
  have marker := admissible _ fit.markers.marker_proper
  unfold Holds
  split
  · rename_i equality
    rw [marker.dummy (fit.marker_isDummy_iff.mpr ⟨equality, required⟩), mul_zero, add_zero]
      at balanced
    exact balanced
  · rename_i inequality
    have other_kind : ¬ (constraint.relation = some .equal ∧
        constraint.strength.isRequired = true) := fun both => inequality both.1
    have nonnegative := marker.restricted (fit.marker_restricted other_kind)
    rw [fit.sign_eq other_kind] at balanced
    linarith

/-- The missed amounts cover the violation where the constraint is balanced. -/
theorem violation_le_missed (fit : constraint.Fit kinds)
    (soft : constraint.strength.isRequired = false) (admissible : assignment.Admissible kinds)
    (balanced : constraint.balance assignment = 0) :
    constraint.violation assignment ≤ constraint.missed assignment := by
  have not_required : ¬ (constraint.relation = some .equal ∧
      constraint.strength.isRequired = true) := fun both => by
    rw [soft] at both
    exact Bool.noConfusion both.2
  have marker := (admissible _ fit.markers.marker_proper).restricted
    (fit.marker_restricted not_required)
  have other_proper := (fit.markers.other_proper soft).1
  have other : 0 ≤ assignment constraint.markers.other.id := by
    refine (admissible _ other_proper).restricted ?_
    unfold Symbol.isRestricted
    rw [fit.other_isError soft, Bool.or_true]
  rw [fit.balance_soft soft] at balanced
  rw [fit.missed_soft soft]
  unfold violation
  split
  · rename_i equality
    rw [if_pos equality, abs_le]
    constructor <;> linarith
  · rename_i inequality
    rw [if_neg inequality]
    refine max_le ?_ ?_ <;> linarith

theorem missed_nonneg (fit : constraint.Fit kinds) (admissible : assignment.Admissible kinds) :
    0 ≤ constraint.missed assignment := by
  refine List.sum_nonneg fun amount member => ?_
  obtain ⟨symbol, inside, rfl⟩ := List.mem_map.mp member
  obtain ⟨proper, is_error, _⟩ := fit.mem_errors inside
  rw [Symbol.under_of_ne_zero proper.1]
  refine (admissible symbol proper).restricted ?_
  unfold Symbol.isRestricted
  rw [is_error, Bool.or_true]

end Fit

end Constraint

/-! ## Extending a choice for the variables -/

/-- The assignments agree on all external symbols. -/
def Assignment.AgreeOutside (kinds : Nat → Symbol.Kind) (assignment other : Assignment) : Prop :=
  ∀ id, kinds id = .external → assignment id = other id

namespace Constraint.Fit

variable {kinds : Nat → Symbol.Kind} {constraint : Constraint Rat}
  {assignment given : Assignment}

/-- The value of an expression depends on external symbols only. -/
theorem eval_expression (fit : constraint.Fit kinds)
    (agree : assignment.AgreeOutside kinds given) :
    constraint.expression.eval assignment = constraint.expression.eval given := by
  refine LinearForm.eval_congr fit.expression fun symbol both => ?_
  rw [Symbol.under_of_ne_zero both.1.1, Symbol.under_of_ne_zero both.1.1]
  exact agree symbol.id ((both.1.isOf_iff .external).mp both.2)

/-- Only the markers of one constraint change. -/
theorem agree_set (fit : constraint.Fit kinds) (agree : assignment.AgreeOutside kinds given)
    {id : Nat} (owned : constraint.Owns id) (number : Rat) :
    (assignment.set id number).AgreeOutside kinds given := by
  intro other external
  rw [Assignment.set_of_ne, agree other external]
  rintro rfl
  exact fit.kind_ne_external owned external

theorem admissible_set (admissible : assignment.Admissible kinds) {symbol : Symbol}
    (proper : symbol.Proper kinds) {number : Rat} (allows : symbol.Allows number) :
    (assignment.set symbol.id number).Admissible kinds := by
  intro other other_proper
  by_cases same : other.id = symbol.id
  · rw [other_proper.eq_of_id_eq proper same, Assignment.set_same]
    exact allows
  · rw [Assignment.set_of_ne _ same]
    exact admissible other other_proper

/-- The extension of a choice for the variables to the markers of one constraint: the constraint
is balanced, and the missed amounts are as small as they can be. -/
structure Extends (kinds : Nat → Symbol.Kind) (constraint : Constraint Rat)
    (given assignment extended : Assignment) : Prop where
  admissible : extended.Admissible kinds
  agree : extended.AgreeOutside kinds given
  balanced : constraint.balance extended = 0
  price : constraint.price extended = constraint.cost given
  kept : ∀ id, ¬ constraint.Owns id → extended id = assignment id

/-- A required constraint that holds has a number for its marker. -/
theorem exists_marker_required (fit : constraint.Fit kinds)
    (admissible : assignment.Admissible kinds) (agree : assignment.AgreeOutside kinds given)
    (required : constraint.strength.isRequired = true) (holds : constraint.Holds given) :
    ∃ extended, Extends kinds constraint given assignment extended := by
  let number := -constraint.markers.sign * constraint.expression.eval given
  have owned := fit.owns_marker
  have agree_there := fit.agree_set agree owned number
  unfold Holds at holds
  refine ⟨assignment.set constraint.markers.marker.id number, ?_, agree_there, ?_, ?_, ?_⟩
  · refine admissible_set admissible fit.markers.marker_proper
      ⟨fun restricted => ?_, fun is_dummy => ?_⟩
    · have other_kind : ¬ (constraint.relation = some .equal ∧
          constraint.strength.isRequired = true) := by
        rw [← fit.marker_isDummy_iff, Symbol.isDummy_eq_false_of_isRestricted restricted]
        exact Bool.noConfusion
      split at holds
      · rename_i equality
        exact absurd ⟨equality, required⟩ other_kind
      · simp only [number, fit.sign_eq other_kind]
        linarith
    · rw [(fit.marker_isDummy_iff.mp is_dummy).1] at holds
      simp only [number]
      rw [holds, mul_zero]
  · rw [fit.balance_required required, fit.eval_expression agree_there, Assignment.set_same]
    simp only [number, Markers.sign]
    split <;> ring
  · rw [Constraint.price, fit.missed_required required, cost, if_pos required, mul_zero]
  · rintro id free
    refine Assignment.set_of_ne _ ?_ _
    rintro rfl
    exact free owned

/-- Any other constraint has numbers for its markers, which are the amounts by which the
expression is above and below zero. -/
theorem exists_markers_soft (fit : constraint.Fit kinds)
    (admissible : assignment.Admissible kinds) (agree : assignment.AgreeOutside kinds given)
    (soft : constraint.strength.isRequired = false) :
    ∃ extended, Extends kinds constraint given assignment extended := by
  obtain ⟨other_proper, other_kind⟩ := fit.markers.other_proper soft
  have owned := fit.owns_marker
  have other_owned : constraint.Owns constraint.markers.other.id := ⟨other_proper.1, Or.inr rfl⟩
  have marker_restricted := fit.marker_restricted fun both => by
    rw [soft] at both
    exact Bool.noConfusion both.2
  let above := max (constraint.expression.eval given) 0
  let below := max (-constraint.expression.eval given) 0
  let extended := (assignment.set constraint.markers.marker.id above).set
    constraint.markers.other.id below
  have at_marker : extended constraint.markers.marker.id = above :=
    (Assignment.set_of_ne _ fit.markers.apart.symm _).trans (Assignment.set_same _ _ _)
  have at_other : extended constraint.markers.other.id = below := Assignment.set_same _ _ _
  have agree_there : extended.AgreeOutside kinds given :=
    fit.agree_set (fit.agree_set agree owned above) other_owned below
  refine ⟨extended, ?_, agree_there, ?_, ?_, ?_⟩
  · refine admissible_set (admissible_set admissible fit.markers.marker_proper ?_) other_proper ?_
    · refine ⟨fun _ => le_max_right _ _, fun is_dummy => ?_⟩
      rw [Symbol.isDummy_eq_false_of_isRestricted marker_restricted] at is_dummy
      exact Bool.noConfusion is_dummy
    · refine ⟨fun _ => le_max_right _ _, fun is_dummy => ?_⟩
      simp [Symbol.isDummy, Symbol.isOf, other_kind] at is_dummy
  · have difference : above - below = constraint.expression.eval given :=
      max_zero_sub_max_neg_zero_eq_self _
    rw [fit.balance_soft soft, fit.eval_expression agree_there, at_marker, at_other]
    linarith
  · rw [Constraint.price, fit.missed_soft soft, cost, soft, at_marker, at_other,
      if_neg Bool.false_ne_true]
    refine congrArg (constraint.strength.weight * ·) ?_
    unfold violation
    by_cases equality : constraint.relation = some .equal
    · rw [if_pos equality, equality]
      exact max_zero_add_max_neg_zero_eq_abs_self _
    · rw [if_neg equality, zero_add]
      split
      · contradiction
      · exact max_comm _ _
  · intro id free
    have not_other : id ≠ constraint.markers.other.id := by
      rintro rfl
      exact free other_owned
    have not_marker : id ≠ constraint.markers.marker.id := by
      rintro rfl
      exact free owned
    exact (Assignment.set_of_ne _ not_other _).trans (Assignment.set_of_ne _ not_marker _)

theorem exists_extends (fit : constraint.Fit kinds) (admissible : assignment.Admissible kinds)
    (agree : assignment.AgreeOutside kinds given)
    (met : constraint.strength.isRequired = true → constraint.Holds given) :
    ∃ extended, Extends kinds constraint given assignment extended := by
  cases required : constraint.strength.isRequired with
  | true => exact fit.exists_marker_required admissible agree required (met required)
  | false => exact fit.exists_markers_soft admissible agree required

end Constraint.Fit

namespace Constraint

/-- A constraint does not depend on symbols that it does not own, external ones apart. -/
theorem Fit.congr_owned {kinds : Nat → Symbol.Kind} {constraint : Constraint Rat}
    (fit : constraint.Fit kinds) {assignment other : Assignment}
    (agree : assignment.AgreeOutside kinds other)
    (same : ∀ id, constraint.Owns id → assignment id = other id) :
    constraint.balance assignment = constraint.balance other ∧
      constraint.price assignment = constraint.price other := by
  have under : ∀ symbol : Symbol, (symbol.id ≠ 0 → constraint.Owns symbol.id) →
      symbol.under assignment = symbol.under other := by
    intro symbol owned
    by_cases absent : symbol.id = 0
    · simp [Symbol.under, Symbol.isNull, absent]
    · rw [Symbol.under_of_ne_zero absent, Symbol.under_of_ne_zero absent, same _ (owned absent)]
  have marker := under constraint.markers.marker fun present => ⟨present, Or.inl rfl⟩
  have second := under constraint.markers.other fun present => ⟨present, Or.inr rfl⟩
  refine ⟨?_, ?_⟩
  · rw [balance_eq, balance_eq, fit.eval_expression agree, marker, second]
  · refine congrArg (constraint.strength.weight * ·) (congrArg List.sum
      (List.map_congr_left fun symbol member => ?_))
    exact under symbol fun _ => (fit.mem_errors member).2.2

end Constraint

namespace Ledger

/-- What missing the entries costs. -/
def cost (ledger : Ledger) (assignment : Assignment) : Rat :=
  (ledger.map fun constraint => constraint.cost assignment).sum

/-- All required entries hold. -/
def Met (ledger : Ledger) (assignment : Assignment) : Prop :=
  ∀ constraint ∈ ledger, constraint.strength.isRequired = true → constraint.Holds assignment

/-- No entry rewards what is missed. -/
def Priced (ledger : Ledger) : Prop :=
  ∀ constraint ∈ ledger, 0 ≤ constraint.strength.weight

/-- A choice for the variables that meets the required entries extends to an admissible solution
at the cost of the choice. -/
theorem Regular.exists_extension {kinds : Nat → Symbol.Kind} {ledger : Ledger}
    (regular : Regular kinds ledger) {given : Assignment} (met : ledger.Met given) :
    ∃ extended : Assignment, extended.Admissible kinds ∧ extended.AgreeOutside kinds given ∧
      (∀ constraint ∈ ledger, constraint.balance extended = 0) ∧
        ledger.price extended = ledger.cost given := by
  induction ledger with
  | nil =>
      refine ⟨fun id => if kinds id = .external then given id else 0, fun symbol proper => ?_,
        fun id external => if_pos external, by simp, rfl⟩
      dsimp only
      split
      · rename_i external
        have kind : symbol.kind = .external := proper.2.trans external
        constructor <;> intro impossible <;>
          simp [Symbol.isRestricted, Symbol.isSlack, Symbol.isError, Symbol.isDummy,
            Symbol.isOf, kind] at impossible
      · exact symbol.allows_zero
  | cons constraint rest inductionHypothesis =>
      obtain ⟨partly, admissible, agree, balanced, priced⟩ := inductionHypothesis regular.tail
        fun entry member => met entry (List.mem_cons_of_mem _ member)
      obtain ⟨extended, admissible', agree', balanced', priced', kept⟩ :=
        regular.head.exists_extends admissible agree (met constraint List.mem_cons_self)
      have agree_rest : extended.AgreeOutside kinds partly := fun id external =>
        (agree' id external).trans (agree id external).symm
      have unchanged : ∀ entry ∈ rest, entry.balance extended = entry.balance partly ∧
          entry.price extended = entry.price partly := by
        intro entry member
        refine (regular.tail.fit entry member).congr_owned agree_rest fun id owned => kept id ?_
        exact fun owned' => regular.not_owns member owned' owned
      refine ⟨extended, admissible', agree', ?_, ?_⟩
      · rw [List.forall_mem_cons]
        exact ⟨balanced', fun entry member =>
          (unchanged entry member).1.trans (balanced entry member)⟩
      · have rest_price : price rest extended = price rest partly :=
          congrArg List.sum (List.map_congr_left fun entry member => (unchanged entry member).2)
        rw [price_cons, priced', rest_price, priced]
        rfl

/-- On an admissible solution the prices cover the costs. -/
theorem Regular.cost_le_price {kinds : Nat → Symbol.Kind} {ledger : Ledger}
    (regular : Regular kinds ledger) (weights : ledger.Priced) {assignment : Assignment}
    (admissible : assignment.Admissible kinds)
    (balanced : ∀ constraint ∈ ledger, constraint.balance assignment = 0) :
    ledger.cost assignment ≤ ledger.price assignment := by
  refine List.sum_le_sum fun constraint member => ?_
  have fit := regular.fit constraint member
  unfold Constraint.cost Constraint.price
  split
  · rename_i required
    rw [fit.missed_required required, mul_zero]
  · rename_i soft
    rw [Bool.not_eq_true] at soft
    exact mul_le_mul_of_nonneg_left
      (fit.violation_le_missed soft admissible (balanced constraint member))
      (weights constraint member)

theorem Regular.price_nonneg {kinds : Nat → Symbol.Kind} {ledger : Ledger}
    (regular : Regular kinds ledger) (weights : ledger.Priced) {assignment : Assignment}
    (admissible : assignment.Admissible kinds) : 0 ≤ ledger.price assignment := by
  refine List.sum_nonneg fun amount member => ?_
  obtain ⟨constraint, inside, rfl⟩ := List.mem_map.mp member
  exact mul_nonneg (weights constraint inside)
    ((regular.fit constraint inside).missed_nonneg admissible)

end Ledger

/-! ## The solved values are optimal -/

namespace Tableau

variable {kinds : Nat → Symbol.Kind} {tableau : Tableau Rat} {ledger priced : Ledger}
  {allowed : Symbol → Prop}

/-- On admissible solutions the objective is bounded below. -/
theorem Prices.exists_bound (prices : tableau.Prices priced)
    (regular : Ledger.Regular kinds priced) (weights : priced.Priced) :
    ∃ bound : Rat, ∀ assignment : Assignment, assignment.Admissible kinds →
      Solves assignment tableau → bound ≤ tableau.objective.eval assignment := by
  obtain ⟨drift, is_price⟩ := prices
  refine ⟨drift, fun assignment admissible solves => ?_⟩
  have nonnegative := regular.price_nonneg weights admissible
  rw [is_price assignment solves]
  linarith

/-- The solved values meet all required entries. -/
theorem Means.met (means : tableau.Means ledger) (regular : tableau.Regular kinds)
    (ledger_regular : Ledger.Regular kinds ledger) (feasible : tableau.Feasible)
    (grounded : tableau.Grounded allowed) :
    ledger.Met (tableau.complete Assignment.zero) := by
  intro constraint member required
  exact (ledger_regular.fit constraint member).holds_of_balanced required
    (feasible.admissible grounded regular)
    ((means _).mp (regular.solves_complete _) constraint member)

/-- No choice for the variables that meets the required entries costs less than the solved
values. -/
theorem Means.cost_le (means : tableau.Means ledger) (prices : tableau.Prices ledger)
    (regular : tableau.Regular kinds) (ledger_regular : Ledger.Regular kinds ledger)
    (weights : ledger.Priced) (feasible : tableau.Feasible)
    (grounded : tableau.Grounded allowed) (lowest : tableau.objective.Lowest)
    {given : Assignment} (met : ledger.Met given) :
    ledger.cost (tableau.complete Assignment.zero) ≤ ledger.cost given := by
  obtain ⟨drift, is_price⟩ := prices
  have solves := regular.solves_complete Assignment.zero
  have admissible := feasible.admissible grounded regular
  obtain ⟨extended, admissible', _, balanced, same_price⟩ := ledger_regular.exists_extension met
  have solves' : Solves extended tableau := (means extended).mpr balanced
  have least := regular.constant_le_objective lowest admissible'
  have here : tableau.objective.constant = drift +
      ledger.price (tableau.complete Assignment.zero) := by
    rw [← is_price _ solves, regular.objective_settled.eval_complete, LinearForm.eval_zero]
  rw [is_price _ solves', here, same_price] at least
  have covered := ledger_regular.cost_le_price weights admissible ((means _).mp solves)
  linarith

end Tableau

end SoftSimplex
