import SoftSimplex.Catalog.Values
import SoftSimplex.Constraint
import SoftSimplex.Options
import SoftSimplex.Refusal
import SoftSimplex.Tableau.Markers
import SoftSimplex.Tableau.Phase
import SoftSimplex.Variable

/-!
# Solvers

A solver keeps the variables and constraints that were created with it, and a tableau for the
active constraints. Callers hold handles. A handle names its solver, so that one solver can
tell another's handles from its own even where the numbers agree.

This module holds the state, the questions that can be asked of it without changing it, and the
upkeep of cached values: a variable whose row came, went or changed joins the queue of stale
variables, unless it waits there already.
-/

namespace SoftSimplex

/-- A caller's name for a variable. -/
structure VariableHandle where
  id : Nat
  owner : Nat
  deriving DecidableEq

/-- A caller's name for a constraint. -/
structure ConstraintHandle where
  id : Nat
  owner : Nat
  deriving DecidableEq

/-- The unknown that the variable stands for. -/
def VariableHandle.symbol (handle : VariableHandle) : Symbol := ⟨handle.id, .external⟩

/-- The symbol under which the constraint is registered. -/
def ConstraintHandle.key (handle : ConstraintHandle) : Symbol := ⟨handle.id, .external⟩

/-- Variables, constraints, and the tableau of the active constraints. -/
structure Solver (α : Type) where
  identity : Nat
  tableau : Tableau α
  /-- What is known about each variable. -/
  unknowns : Catalog (Variable α)
  constraints : Catalog (Constraint α)
  symbols : SymbolSupply
  /-- The number of the constraint created last. -/
  lastConstraint : Nat
  autoUpdate : Bool
  /-- The variables whose cached values are due for a refresh, the one to be refreshed next
  coming first. -/
  stale : List Symbol

namespace Solver

variable {α : Type} [Scalar α]

/-- A solver without variables and constraints. -/
def new (identity : Nat) (options : Options) : Solver α where
  identity
  tableau := Tableau.empty
  unknowns := Catalog.new options.pageSize
  constraints := Catalog.new options.pageSize
  symbols := SymbolSupply.full
  lastConstraint := 0
  autoUpdate := options.autoUpdate
  stale := []

/-- The variable that a handle names. A foreign handle is refused before its number is looked
up. -/
def findVariable (solver : Solver α) (handle : VariableHandle) : Except Refusal (Variable α) :=
  if handle.owner = solver.identity then
    match solver.unknowns.get? handle.symbol with
    | some found => .ok found
    | none => .error .unknownVariable
  else .error .foreignHandle

/-- The constraint that a handle names. -/
def findConstraint (solver : Solver α) (handle : ConstraintHandle) :
    Except Refusal (Constraint α) :=
  if handle.owner = solver.identity then
    match solver.constraints.get? handle.key with
    | some found => .ok found
    | none => .error .unknownConstraint
  else .error .foreignHandle

/-- The constraint that a handle names, provided that it can be written. -/
def findInactive (solver : Solver α) (handle : ConstraintHandle) : Except Refusal (Constraint α) :=
  match solver.findConstraint handle with
  | .ok found => if found.isActive then .error .activeConstraint else .ok found
  | .error reason => .error reason

/-! ## Questions

An unknown or foreign handle gets the answer that fits an object with nothing in it. -/

/-- The cached value of a variable. -/
def valueOf (solver : Solver α) (handle : VariableHandle) : α :=
  match solver.findVariable handle with
  | .ok found => found.value
  | .error _ => 0

/-- The target of an edited variable. -/
def targetOf (solver : Solver α) (handle : VariableHandle) : α :=
  match solver.findVariable handle with
  | .ok found => found.target
  | .error _ => 0

/-- The variable is edited. -/
def isEdited (solver : Solver α) (handle : VariableHandle) : Bool :=
  match solver.findVariable handle with
  | .ok found => found.edit.isSome
  | .error _ => false

/-- The constraint takes part in the tableau. -/
def isActive (solver : Solver α) (handle : ConstraintHandle) : Bool :=
  match solver.findConstraint handle with
  | .ok found => found.isActive
  | .error _ => false

/-- The strength of a constraint. -/
def strengthOf? (solver : Solver α) (handle : ConstraintHandle) : Option (Strength α) :=
  match solver.findConstraint handle with
  | .ok found => some found.strength
  | .error _ => none

/-- The relation of a constraint, if it has one yet. -/
def relationOf? (solver : Solver α) (handle : ConstraintHandle) : Option Relation :=
  match solver.findConstraint handle with
  | .ok found => found.relation
  | .error _ => none

/-- The constant of a constraint's expression. -/
def constantOf (solver : Solver α) (handle : ConstraintHandle) : α :=
  match solver.findConstraint handle with
  | .ok found => found.expression.constant
  | .error _ => 0

/-- The coefficient of a variable in a constraint's expression. The variable counts by its
number alone. -/
def coefficientOf (solver : Solver α) (handle : ConstraintHandle) (inside : VariableHandle) :
    α :=
  match solver.findConstraint handle with
  | .ok found => found.expression.coefficient inside.symbol
  | .error _ => 0

/-- The number of variables in a constraint's expression. -/
def termCountOf (solver : Solver α) (handle : ConstraintHandle) : Nat :=
  match solver.findConstraint handle with
  | .ok found => found.expression.size
  | .error _ => 0

/-- The number of registered variables. -/
def variableCount (solver : Solver α) : Nat := solver.unknowns.size

/-- The number of registered constraints, hidden ones included. -/
def constraintCount (solver : Solver α) : Nat := solver.constraints.size

/-- The number of rows in the tableau. -/
def rowCount (solver : Solver α) : Nat := solver.tableau.rows.size

/-- Let a registered variable wait for a refresh, unless it waits already. -/
def markStale (solver : Solver α) (symbol : Symbol) : Solver α :=
  match solver.unknowns.get? symbol with
  | none => solver
  | some found =>
      if found.isStale then solver
      else
        { solver with
          unknowns := solver.unknowns.modify symbol fun state => { state with isStale := true }
          stale := symbol :: solver.stale }

/-- Take over a tableau, and let every touched variable wait for a refresh. -/
def adopt (solver : Solver α) (tableau : Tableau α) : Solver α :=
  tableau.agenda.touched.reverse.foldl markStale
    { solver with tableau := { tableau with agenda := { tableau.agenda with touched := [] } } }

/-- Copy the solved values of all stale variables into their caches. -/
def refresh (solver : Solver α) : Solver α :=
  { solver with
    unknowns := solver.stale.foldl
      (fun unknowns symbol => unknowns.modify symbol fun state =>
        state.refreshed (solver.tableau.value symbol))
      solver.unknowns
    stale := [] }

@[simp]
theorem refresh_stale (solver : Solver α) : solver.refresh.stale = [] := rfl

@[simp]
theorem refresh_tableau (solver : Solver α) : solver.refresh.tableau = solver.tableau := rfl

end Solver

end SoftSimplex
