import SoftSimplex.Solver.Editing

/-!
# Commands

Everything a caller can ask a solver to do, as data. A history of a solver is a list of commands
with the number of steps allotted to each.
-/

namespace SoftSimplex

/-- A request to change a solver. -/
inductive Command (α : Type) where
  | createVariable
  | shareVariable (handle : VariableHandle)
  | giveUpVariable (handle : VariableHandle)
  | createConstraint (strength : Strength α)
  | copyConstraint (source : ConstraintHandle) (strength : Strength α)
  | mergeConstraint (handle source : ConstraintHandle) (factor : α)
  | addTerm (handle : ConstraintHandle) (inside : VariableHandle) (coefficient : α)
  | addConstant (handle : ConstraintHandle) (constant : α)
  | setRelation (handle : ConstraintHandle) (relation : Relation)
  | setStrength (handle : ConstraintHandle) (strength : Strength α)
  | addConstraint (handle : ConstraintHandle)
  | withdrawConstraint (handle : ConstraintHandle)
  | eraseConstraint (handle : ConstraintHandle)
  | discardConstraint (handle : ConstraintHandle)
  | beginEdit (handle : VariableHandle) (strength : Strength α)
  | suggest (handle : VariableHandle) (target : α)
  | endEdit (handle : VariableHandle)
  | refresh
  | reset (dropConstraints : Bool)
  | setAutoUpdate (autoUpdate : Bool)

/-- What a caller is handed back. -/
inductive Reply where
  | done
  | variable (handle : VariableHandle)
  | constraint (handle : ConstraintHandle)
  deriving DecidableEq

/-- How the execution of a command ends. -/
inductive Ending where
  | answered (reply : Reply)
  | refused (reason : Refusal)
  /-- The allotted steps were used up. -/
  | paused
  deriving DecidableEq

namespace Command

variable {α : Type} [Scalar α]

/-- The action that a command asks for. -/
def action : Command α → Action α Reply
  | createVariable => Reply.variable <$> Action.createVariable
  | createConstraint strength => Reply.constraint <$> Action.createConstraint strength
  | copyConstraint source strength =>
      Reply.constraint <$> Action.copyConstraint source strength
  | shareVariable handle => finish (Action.shareVariable handle)
  | giveUpVariable handle => finish (Action.giveUpVariable handle)
  | mergeConstraint handle source factor =>
      finish (Action.mergeConstraint handle source factor)
  | addTerm handle inside coefficient => finish (Action.addTerm handle inside coefficient)
  | addConstant handle constant => finish (Action.addConstant handle constant)
  | setRelation handle relation => finish (Action.setRelation handle relation)
  | setStrength handle strength => finish (Action.setStrength handle strength)
  | addConstraint handle => finish (Action.addConstraint handle)
  | withdrawConstraint handle => finish (Action.withdrawConstraint handle)
  | eraseConstraint handle => finish (Action.eraseConstraint handle)
  | discardConstraint handle => finish (Action.discardConstraint handle)
  | beginEdit handle strength => finish (Action.beginEdit handle strength)
  | suggest handle target => finish (Action.suggest handle target)
  | endEdit handle => finish (Action.endEdit handle)
  | refresh => finish Action.refreshAll
  | reset dropConstraints => finish (Action.reset dropConstraints)
  | setAutoUpdate autoUpdate => finish (Action.setAutoUpdate autoUpdate)
where
  /-- An action without a result of its own. -/
  finish (action : Action α Unit) : Action α Reply := do
    action
    return .done

end Command

/-- Execute a command with an allotment of steps. The solver is returned however the execution
ends. -/
def Solver.perform {α : Type} [Scalar α] (solver : Solver α) (command : Command α)
    (steps : Nat) : Ending × Solver α :=
  match command.action ⟨solver, steps⟩ with
  | .ok reply session => (.answered reply, session.solver)
  | .error (.refused reason) session => (.refused reason, session.solver)
  | .error .paused session => (.paused, session.solver)

end SoftSimplex
