import SoftSimplex.LinearForm
import SoftSimplex.Strength

/-!
# Constraints

A constraint is gathered into one expression that is compared with zero: an inequality asks for
a nonnegative expression and an equality for a vanishing one. What is written before the
relation stands on its left side and what is written after it on its right side. For "at
least" the right side is subtracted from the left one; for the other relations the left side is
subtracted from the right one.

While a constraint is active it owns symbols of the tableau, its markers. A constraint that is
not active owns none.
-/

namespace SoftSimplex

/-- How the two sides of a constraint compare. -/
inductive Relation where
  | atMost
  | equal
  | atLeast
  deriving DecidableEq

namespace Relation

/-- The sign with which a contribution to the right side enters the expression. -/
def rightSign {α : Type} [Scalar α] : Relation → α
  | atLeast => -1
  | atMost | equal => 1

/-- What was gathered before the relation, as it enters the expression. -/
def leftSide {α : Type} [Scalar α] (relation : Relation) (expression : LinearForm α) :
    LinearForm α :=
  match relation with
  | atLeast => expression
  | atMost | equal => expression.scale (-1)

end Relation

/-- The symbols that an active constraint owns: the one that marks it, and the second missed
amount if there is one. -/
structure Markers where
  marker : Symbol
  other : Symbol
  deriving DecidableEq

namespace Markers

/-- The markers of a constraint that is not active. -/
def absent : Markers := ⟨Symbol.null, Symbol.null⟩

/-- The missed amounts among the markers. -/
def errors (markers : Markers) : List Symbol :=
  [markers.marker, markers.other].filter Symbol.isError

/-- Draw the markers for a constraint. An inequality gets a surplus, and an amount by which it
falls short unless it is required. A required equality gets a dummy, and any other equality one
missed amount for each direction. -/
def draw (supply : SymbolSupply) (relation : Option Relation) (isRequired : Bool) :
    Markers × SymbolSupply :=
  match relation, isRequired with
  | some .equal, true =>
      let (dummy, supply) := supply.draw .dummy
      (⟨dummy, Symbol.null⟩, supply)
  | some .equal, false =>
      let (above, supply) := supply.draw .error
      let (below, supply) := supply.draw .error
      (⟨above, below⟩, supply)
  | _, true =>
      let (surplus, supply) := supply.draw .slack
      (⟨surplus, Symbol.null⟩, supply)
  | _, false =>
      let (surplus, supply) := supply.draw .slack
      let (shortfall, supply) := supply.draw .error
      (⟨surplus, shortfall⟩, supply)

/-- Add the markers to an expression so that the sum has to vanish: a dummy and a second symbol
are added, and any other first symbol is subtracted. -/
def extend {α : Type} [Scalar α] (markers : Markers) (form : LinearForm α) : LinearForm α :=
  (form.plus markers.marker (if markers.marker.isDummy then 1 else -1)).plus markers.other 1

@[simp]
theorem errors_absent : absent.errors = [] := rfl

end Markers

/-- What a solver knows about a constraint. -/
structure Constraint (α : Type) where
  expression : LinearForm α
  markers : Markers
  relation : Option Relation
  strength : Strength α

namespace Constraint

variable {α : Type} [Scalar α]

/-- A constraint with nothing written yet. -/
def blank (strength : Strength α) : Constraint α where
  expression := LinearForm.ofConstant 0
  markers := Markers.absent
  relation := none
  strength := strength

/-- The constraint takes part in the tableau. -/
def isActive (constraint : Constraint α) : Bool :=
  !constraint.markers.marker.isNull

/-- The sign with which the next contribution enters the expression. -/
def sideSign (constraint : Constraint α) : α :=
  (constraint.relation.map Relation.rightSign).getD 1

/-- Add a multiple of a variable to the side being written. -/
def addTerm (constraint : Constraint α) (symbol : Symbol) (coefficient : α) : Constraint α :=
  { constraint with
    expression := constraint.expression.plus symbol (coefficient * constraint.sideSign) }

/-- Add a constant to the side being written. -/
def addConstant (constraint : Constraint α) (constant : α) : Constraint α :=
  { constraint with
    expression := { constraint.expression with
      constant := constraint.expression.constant + constant * constraint.sideSign } }

/-- Add a multiple of another expression to the side being written. -/
def addForm (constraint : Constraint α) (form : LinearForm α) (factor : α) : Constraint α :=
  { constraint with
    expression := constraint.expression.plusMultiple form (factor * constraint.sideSign) }

/-- Fix the relation and begin its right side. -/
def relate (constraint : Constraint α) (relation : Relation) : Constraint α :=
  { constraint with
    expression := relation.leftSide constraint.expression
    relation := some relation }

/-- Forget the relation and everything written. -/
def erased (constraint : Constraint α) : Constraint α :=
  { constraint with expression := constraint.expression.cleared, relation := none }

@[simp]
theorem isActive_blank (strength : Strength α) : (blank strength).isActive = false := rfl

@[simp]
theorem sideSign_blank (strength : Strength α) : (blank strength).sideSign = 1 := rfl

end Constraint

end SoftSimplex
