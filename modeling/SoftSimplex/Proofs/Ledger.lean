import Mathlib.Algebra.Order.Field.Rat
import SoftSimplex.Proofs.Tableau.Solutions
import SoftSimplex.Tableau.Markers

/-!
# The ledger of a tableau

A ledger lists the constraints that a tableau stands for, with their expressions as they are by
now. An active constraint asks that its expression, extended by its markers, vanishes. A tableau
means a ledger if its solutions are the assignments that satisfy all entries, and it prices a
ledger if on solutions the objective is the price of all missed amounts, up to a constant that
nothing reads. What no entry speaks of cannot occur in the tableau.
-/

namespace SoftSimplex

namespace Markers

/-- The kind of the symbol that marks a constraint. -/
def markerKind (relation : Option Relation) (isRequired : Bool) : Symbol.Kind :=
  match relation, isRequired with
  | some .equal, true => .dummy
  | some .equal, false => .error
  | _, _ => .slack

/-- The markers are proper symbols of the kinds that the relation and the strength ask for. -/
structure Fit (kinds : Nat → Symbol.Kind) (relation : Option Relation) (isRequired : Bool)
    (markers : Markers) : Prop where
  marker_proper : markers.marker.Proper kinds
  marker_kind : markers.marker.kind = markerKind relation isRequired
  other_absent : isRequired = true → markers.other = Symbol.null
  other_proper : isRequired = false → markers.other.Proper kinds ∧ markers.other.kind = .error
  apart : markers.other.id ≠ markers.marker.id

namespace Fit

variable {kinds : Nat → Symbol.Kind} {relation : Option Relation} {isRequired : Bool}
  {markers : Markers} {symbol : Symbol}

/-- Both markers are proper, unless the second one is absent. -/
theorem proper (fit : markers.Fit kinds relation isRequired)
    (member : symbol = markers.marker ∨ symbol = markers.other) (present : symbol.id ≠ 0) :
    symbol.Proper kinds := by
  rcases member with rfl | rfl
  · exact fit.marker_proper
  · cases isRequired with
    | true => rw [fit.other_absent rfl] at present; exact absurd rfl present
    | false => exact (fit.other_proper rfl).1

/-- No marker is external. -/
theorem internal (fit : markers.Fit kinds relation isRequired)
    (member : symbol = markers.marker ∨ symbol = markers.other) (present : symbol.id ≠ 0) :
    kinds symbol.id ≠ .external := by
  rw [← (fit.proper member present).2]
  rcases member with rfl | rfl
  · rw [fit.marker_kind]
    unfold markerKind
    split <;> exact Symbol.Kind.noConfusion
  · cases isRequired with
    | true => rw [fit.other_absent rfl] at present; exact absurd rfl present
    | false =>
        rw [(fit.other_proper rfl).2]
        exact Symbol.Kind.noConfusion

end Fit

theorem mem_errors_iff (markers : Markers) (symbol : Symbol) :
    symbol ∈ markers.errors ↔
      (symbol = markers.marker ∨ symbol = markers.other) ∧ symbol.isError = true := by
  rw [errors, List.mem_filter, List.mem_cons, List.mem_singleton]

/-- The sign with which the marker enters the equation of the constraint. -/
def sign (markers : Markers) : Rat :=
  if markers.marker.isDummy then 1 else -1

theorem sign_ne_zero (markers : Markers) : markers.sign ≠ 0 := by
  unfold sign
  split <;> simp

theorem eval_extend (markers : Markers) (form : LinearForm Rat) (assignment : Assignment) :
    (markers.extend form).eval assignment = form.eval assignment +
      markers.sign * markers.marker.under assignment + markers.other.under assignment := by
  rw [extend, LinearForm.eval_plus, LinearForm.eval_plus, one_mul]
  rfl

end Markers

namespace Constraint

/-- The amount by which the equation of the constraint fails. -/
def balance (constraint : Constraint Rat) (assignment : Assignment) : Rat :=
  (constraint.markers.extend constraint.expression).eval assignment

/-- The sum of the missed amounts. -/
def missed (constraint : Constraint Rat) (assignment : Assignment) : Rat :=
  (constraint.markers.errors.map fun symbol => symbol.under assignment).sum

/-- The price of the missed amounts. -/
def price (constraint : Constraint Rat) (assignment : Assignment) : Rat :=
  constraint.strength.weight * constraint.missed assignment

/-- The symbol is a marker of the constraint. -/
def Owns {α : Type} (constraint : Constraint α) (id : Nat) : Prop :=
  id ≠ 0 ∧ (constraint.markers.marker.id = id ∨ constraint.markers.other.id = id)

theorem owns_of_present {α : Type} {constraint : Constraint α} {symbol : Symbol}
    (member : symbol = constraint.markers.marker ∨ symbol = constraint.markers.other)
    (present : symbol.id ≠ 0) : constraint.Owns symbol.id := by
  refine ⟨present, ?_⟩
  rcases member with rfl | rfl
  · exact Or.inl rfl
  · exact Or.inr rfl

/-- The constraint speaks neither in its expression nor through its markers of a symbol. -/
def Avoids (constraint : Constraint Rat) (id : Nat) : Prop :=
  (constraint.expression.Over fun symbol => symbol.id ≠ id) ∧ ¬ constraint.Owns id

/-- The expression is over proper external symbols and the markers fit the constraint. -/
structure Fit (kinds : Nat → Symbol.Kind) (constraint : Constraint Rat) : Prop where
  expression : constraint.expression.Over fun symbol =>
    symbol.Proper kinds ∧ symbol.isExternal = true
  markers : constraint.markers.Fit kinds constraint.relation constraint.strength.isRequired

theorem balance_eq (constraint : Constraint Rat) (assignment : Assignment) :
    constraint.balance assignment = constraint.expression.eval assignment +
      constraint.markers.sign * constraint.markers.marker.under assignment +
        constraint.markers.other.under assignment :=
  constraint.markers.eval_extend constraint.expression assignment

theorem under_set_of_not_owns {constraint : Constraint Rat} {id : Nat} (proper : id ≠ 0)
    (free : ¬ constraint.Owns id) (assignment : Assignment) (number : Rat) :
    constraint.markers.marker.under (assignment.set id number) =
        constraint.markers.marker.under assignment ∧
      constraint.markers.other.under (assignment.set id number) =
        constraint.markers.other.under assignment :=
  ⟨Symbol.under_set_of_ne (fun same => free ⟨proper, Or.inl same⟩) assignment number,
    Symbol.under_set_of_ne (fun same => free ⟨proper, Or.inr same⟩) assignment number⟩

theorem Avoids.balance_set {constraint : Constraint Rat} {id : Nat} (proper : id ≠ 0)
    (avoids : constraint.Avoids id) (assignment : Assignment) (number : Rat) :
    constraint.balance (assignment.set id number) = constraint.balance assignment := by
  have parts := under_set_of_not_owns proper avoids.2 assignment number
  have spanned : constraint.expression.Over fun symbol =>
      symbol.id ≠ (⟨id, .external⟩ : Symbol).id := avoids.1
  have inner := spanned.eval_set assignment number
  rw [balance_eq, balance_eq, parts.1, parts.2, inner]

theorem missed_set_of_not_owns {constraint : Constraint Rat} {id : Nat} (proper : id ≠ 0)
    (free : ¬ constraint.Owns id) (assignment : Assignment) (number : Rat) :
    constraint.missed (assignment.set id number) = constraint.missed assignment := by
  have parts := under_set_of_not_owns proper free assignment number
  unfold missed Markers.errors
  refine congrArg List.sum (List.map_congr_left fun symbol member => ?_)
  rcases ((constraint.markers.mem_errors_iff symbol).mp member).1 with rfl | rfl
  · exact parts.1
  · exact parts.2

theorem price_set_of_not_owns {constraint : Constraint Rat} {id : Nat} (proper : id ≠ 0)
    (free : ¬ constraint.Owns id) (assignment : Assignment) (number : Rat) :
    constraint.price (assignment.set id number) = constraint.price assignment := by
  rw [price, price, missed_set_of_not_owns proper free]

namespace Fit

variable {kinds : Nat → Symbol.Kind} {constraint : Constraint Rat}

/-- No marker is external. -/
theorem kind_ne_external (fit : constraint.Fit kinds) {id : Nat} (owned : constraint.Owns id) :
    kinds id ≠ .external := by
  obtain ⟨present, rfl | rfl⟩ := owned
  · exact fit.markers.internal (Or.inl rfl) present
  · exact fit.markers.internal (Or.inr rfl) present

/-- No expression mentions a symbol that is not external. -/
theorem expression_avoids (fit : constraint.Fit kinds) {id : Nat}
    (internal : kinds id ≠ .external) :
    constraint.expression.Over fun symbol => symbol.id ≠ id :=
  fit.expression.mono fun symbol both same =>
    internal (by rw [← same]; exact (both.1.isOf_iff .external).mp both.2)

/-- A constraint that does not own a marker of another does not speak of it at all. -/
theorem avoids (fit : constraint.Fit kinds) {other : Constraint Rat} (fit' : other.Fit kinds)
    {id : Nat} (owned : other.Owns id) (free : ¬ constraint.Owns id) : constraint.Avoids id :=
  ⟨fit.expression_avoids (fit'.kind_ne_external owned), free⟩

theorem owns_marker (fit : constraint.Fit kinds) : constraint.Owns constraint.markers.marker.id :=
  ⟨fit.markers.marker_proper.1, Or.inl rfl⟩

theorem marker_internal (fit : constraint.Fit kinds) :
    constraint.markers.marker.isExternal = false := by
  have internal := fit.kind_ne_external fit.owns_marker
  by_contra external
  rw [Bool.not_eq_false] at external
  exact internal ((fit.markers.marker_proper.isOf_iff .external).mp external)

theorem mem_errors (fit : constraint.Fit kinds) {symbol : Symbol}
    (member : symbol ∈ constraint.markers.errors) :
    symbol.Proper kinds ∧ symbol.isError = true ∧ constraint.Owns symbol.id := by
  obtain ⟨inside, is_error⟩ := (constraint.markers.mem_errors_iff symbol).mp member
  have present : symbol.id ≠ 0 := ((symbol.isOf_eq_true_iff .error).mp is_error).1
  exact ⟨fit.markers.proper inside present, is_error, owns_of_present inside present⟩

theorem internal_errors (fit : constraint.Fit kinds) :
    ∀ symbol ∈ constraint.markers.errors, symbol.Proper kinds ∧ symbol.isExternal = false := by
  intro symbol member
  obtain ⟨proper, is_error, _⟩ := fit.mem_errors member
  rw [Symbol.isError, Symbol.isOf_eq_true_iff] at is_error
  exact ⟨proper, by simp [Symbol.isExternal, Symbol.isOf, is_error.2]⟩

/-- The balance moves with the marker. -/
theorem balance_set_marker (fit : constraint.Fit kinds) (assignment : Assignment) (number : Rat) :
    constraint.balance (assignment.set constraint.markers.marker.id number) =
      constraint.balance assignment +
        constraint.markers.sign * (number - assignment constraint.markers.marker.id) := by
  have inner := LinearForm.Over.eval_set
    (fit.expression_avoids (fit.kind_ne_external fit.owns_marker)) assignment
  have proper := fit.markers.marker_proper.1
  rw [balance_eq, balance_eq, inner, Symbol.under_set_of_ne fit.markers.apart,
    Symbol.under_of_ne_zero proper, Symbol.under_of_ne_zero proper, Assignment.set_same]
  ring

/-- The number for the marker that balances the constraint. -/
theorem exists_balance_eq_zero (fit : constraint.Fit kinds) (assignment : Assignment) :
    ∃ number, constraint.balance (assignment.set constraint.markers.marker.id number) = 0 := by
  refine ⟨assignment constraint.markers.marker.id -
    constraint.balance assignment / constraint.markers.sign, ?_⟩
  have nonzero := constraint.markers.sign_ne_zero
  rw [fit.balance_set_marker]
  field_simp
  ring

end Fit

end Constraint

/-! ## Ledgers -/

/-- The constraints that a tableau stands for. -/
abbrev Ledger := List (Constraint Rat)

namespace Ledger

/-- All entries fit, and no two of them own one symbol. -/
structure Regular (kinds : Nat → Symbol.Kind) (ledger : Ledger) : Prop where
  fit : ∀ constraint ∈ ledger, constraint.Fit kinds
  apart : ledger.Pairwise fun first second => ∀ id, first.Owns id → ¬ second.Owns id

/-- The price of all missed amounts. -/
def price (ledger : Ledger) (assignment : Assignment) : Rat :=
  (ledger.map fun constraint => constraint.price assignment).sum

@[simp]
theorem price_nil (assignment : Assignment) : price [] assignment = 0 := rfl

@[simp]
theorem price_cons (constraint : Constraint Rat) (ledger : Ledger) (assignment : Assignment) :
    price (constraint :: ledger) assignment =
      constraint.price assignment + price ledger assignment := rfl

theorem price_perm {ledger other : Ledger} (perm : ledger.Perm other) (assignment : Assignment) :
    ledger.price assignment = other.price assignment :=
  (perm.map _).sum_eq

theorem price_set {ledger : Ledger} {id : Nat} (proper : id ≠ 0)
    (free : ∀ constraint ∈ ledger, ¬ constraint.Owns id) (assignment : Assignment)
    (number : Rat) : ledger.price (assignment.set id number) = ledger.price assignment :=
  congrArg List.sum (List.map_congr_left fun constraint member =>
    Constraint.price_set_of_not_owns proper (free constraint member) assignment number)

namespace Regular

variable {kinds : Nat → Symbol.Kind} {constraint : Constraint Rat} {ledger other : Ledger}

theorem nil (kinds : Nat → Symbol.Kind) : Regular kinds [] :=
  ⟨fun _ member => absurd member List.not_mem_nil, List.Pairwise.nil⟩

theorem tail (regular : Regular kinds (constraint :: ledger)) : Regular kinds ledger :=
  ⟨fun entry member => regular.fit entry (List.mem_cons_of_mem _ member),
    (List.pairwise_cons.mp regular.apart).2⟩

theorem head (regular : Regular kinds (constraint :: ledger)) : constraint.Fit kinds :=
  regular.fit constraint List.mem_cons_self

theorem not_owns (regular : Regular kinds (constraint :: ledger)) {entry : Constraint Rat}
    (member : entry ∈ ledger) {id : Nat} (owned : constraint.Owns id) : ¬ entry.Owns id :=
  (List.pairwise_cons.mp regular.apart).1 entry member id owned

theorem perm (regular : Regular kinds ledger) (perm : ledger.Perm other) :
    Regular kinds other := by
  refine ⟨fun entry member => regular.fit entry (perm.mem_iff.mpr member), ?_⟩
  refine (perm.pairwise_iff ?_).mp regular.apart
  intro first second separate id owned owned'
  exact separate id owned' owned

/-- The other entries do not speak of the markers of the first one. -/
theorem avoids (regular : Regular kinds (constraint :: ledger)) {entry : Constraint Rat}
    (member : entry ∈ ledger) {id : Nat} (owned : constraint.Owns id) : entry.Avoids id :=
  (regular.tail.fit entry member).avoids regular.head owned (regular.not_owns member owned)

end Regular

end Ledger

namespace Tableau

/-- The solutions are the assignments that satisfy all entries. -/
def Means (tableau : Tableau Rat) (ledger : Ledger) : Prop :=
  ∀ assignment, Solves assignment tableau ↔
    ∀ constraint ∈ ledger, constraint.balance assignment = 0

/-- On solutions the objective is the price of the entries, up to a constant. -/
def Prices (tableau : Tableau Rat) (ledger : Ledger) : Prop :=
  ∃ drift, ∀ assignment, Solves assignment tableau →
    tableau.objective.eval assignment = drift + ledger.price assignment

theorem Means.perm {tableau : Tableau Rat} {ledger other : Ledger} (means : tableau.Means ledger)
    (perm : ledger.Perm other) : tableau.Means other := by
  intro assignment
  rw [means assignment]
  exact ⟨fun all entry member => all entry (perm.mem_iff.mpr member),
    fun all entry member => all entry (perm.mem_iff.mp member)⟩

theorem Prices.perm {tableau : Tableau Rat} {ledger other : Ledger}
    (prices : tableau.Prices ledger) (perm : ledger.Perm other) : tableau.Prices other := by
  obtain ⟨drift, priced⟩ := prices
  refine ⟨drift, fun assignment solves => ?_⟩
  rw [priced assignment solves, Ledger.price_perm perm]

theorem means_empty : (empty : Tableau Rat).Means [] := fun _ =>
  ⟨fun _ _ member => absurd member List.not_mem_nil,
    fun _ _ member => absurd member List.not_mem_nil⟩

theorem prices_empty : (empty : Tableau Rat).Prices [] :=
  ⟨0, fun assignment _ => by simp [empty]⟩

variable {kinds : Nat → Symbol.Kind} {tableau : Tableau Rat} {ledger priced : Ledger} {id : Nat}

/-- Solutions do not depend on what no entry speaks of. -/
theorem Means.indifferent (means : tableau.Means ledger) (proper : id ≠ 0)
    (avoided : ∀ constraint ∈ ledger, constraint.Avoids id) : tableau.Indifferent id := by
  intro assignment number solves
  rw [means] at solves ⊢
  intro constraint member
  rw [(avoided constraint member).balance_set proper]
  exact solves constraint member

/-- The objective does not mention what no entry speaks of. -/
theorem Regular.objective_mentions_eq_false (regular : tableau.Regular kinds)
    (indifferent : tableau.Indifferent id) (prices : tableau.Prices priced) (proper : id ≠ 0)
    (unowned : ∀ constraint ∈ priced, ¬ constraint.Owns id) (kind : Symbol.Kind) :
    tableau.objective.mentions ⟨id, kind⟩ = false := by
  obtain ⟨drift, is_price⟩ := prices
  let solution := tableau.complete Assignment.zero
  have solves := regular.solves_complete Assignment.zero
  refine regular.objective_settled.mentions_eq_false proper solution (solution id + 1)
    (by simp) ?_
  rw [is_price _ (indifferent solution _ solves), is_price _ solves,
    Ledger.price_set proper unowned]

end Tableau

end SoftSimplex
