/-!
# Refusals

The reasons for which a solver declines an operation, with the text and the status reported for
each. Misuse of handles fails; the two reasons that concern the constraint system itself have
statuses of their own.
-/

namespace SoftSimplex

/-- Why a solver declines an operation. -/
inductive Refusal where
  | unknownVariable
  | unknownConstraint
  /-- The handle was issued by another solver. -/
  | foreignHandle
  /-- The constraint takes part in the tableau and cannot be written. -/
  | activeConstraint
  | relationFixed
  /-- The constraint contradicts the required ones by itself. -/
  | unsatisfied
  /-- No choice of the symbols makes the constraint feasible. -/
  | unbound
  deriving DecidableEq

/-- The classes into which results fall. -/
inductive Status where
  | ok
  | failed
  | unsatisfied
  | unbound
  deriving DecidableEq

/-- The number of a class: zero for success and a negative number otherwise. -/
def Status.code : Status → Int
  | ok => 0
  | failed => -1
  | unsatisfied => -2
  | unbound => -3

namespace Refusal

/-- The class that a reason belongs to. -/
def status : Refusal → Status
  | unsatisfied => .unsatisfied
  | unbound => .unbound
  | unknownVariable | unknownConstraint | foreignHandle | activeConstraint | relationFixed =>
      .failed

/-- The sentence that tells a reader what went wrong. -/
def message : Refusal → String
  | unknownVariable => "The variable is not registered in this solver"
  | unknownConstraint => "The constraint is not registered in this solver"
  | foreignHandle => "The handle belongs to a different solver"
  | activeConstraint => "The constraint is already part of the solver and cannot be modified"
  | relationFixed => "The constraint relation has already been set"
  | unsatisfied => "The constraint cannot be satisfied"
  | unbound => "The constraint could not be made feasible"

end Refusal

/-- The class of a result. -/
def Status.ofResult {ρ : Type} : Except Refusal ρ → Status
  | .ok _ => ok
  | .error reason => reason.status

@[simp]
theorem Status.ofResult_ok {ρ : Type} (result : ρ) :
    Status.ofResult (.ok result) = Status.ok := rfl

/-- A result counts as a success exactly when nothing was refused. -/
theorem Status.code_ofResult_eq_zero_iff {ρ : Type} (result : Except Refusal ρ) :
    (Status.ofResult result).code = 0 ↔ ∃ value, result = .ok value := by
  cases result with
  | ok value => simp [Status.ofResult, Status.code]
  | error reason => cases reason <;> simp [Status.ofResult, Refusal.status, Status.code]

end SoftSimplex
