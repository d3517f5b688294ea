import SoftSimplex.Solver.Basic

/-!
# Actions on a solver

An action changes a solver and either answers, is refused, or pauses because the steps allotted
to pivoting are used up. All three leave a solver behind: a paused action leaves the one that
its steps have led to. The allotment is shared by all phases of an action, so raising it by one
lets the action go exactly one step further.
-/

namespace SoftSimplex

/-- A solver at work, with the steps that may still be taken. -/
structure Session (α : Type) where
  solver : Solver α
  steps : Nat

/-- Why an action came to no answer. -/
inductive Interrupt where
  | refused (reason : Refusal)
  | paused

/-- A change of a solver that may be refused or pause. -/
abbrev Action (α : Type) : Type → Type := EStateM Interrupt (Session α)

namespace Action

variable {α : Type} [Scalar α] {ρ : Type}

/-- The solver as it is. -/
def read : Action α (Solver α) :=
  return (← get).solver

/-- Change the solver. -/
def update (change : Solver α → Solver α) : Action α Unit :=
  modify fun session => { session with solver := change session.solver }

/-- Give a reason and stop. -/
def refuse (reason : Refusal) : Action α ρ :=
  throw (.refused reason)

/-- Go on with a result, or stop for the reason given in its place. -/
def demand : Except Refusal ρ → Action α ρ
  | .ok result => return result
  | .error reason => refuse reason

/-- Turn a refusal into a result. A pause stays a pause. -/
def attempt (action : Action α ρ) : Action α (Except Refusal ρ) := fun session =>
  match action session with
  | .ok result session => .ok (.ok result) session
  | .error (.refused reason) session => .ok (.error reason) session
  | .error .paused session => .error .paused session

/-- Change the tableau. -/
def rework (change : Tableau α → Tableau α) : Action α Unit :=
  update fun solver => solver.adopt (change solver.tableau)

/-- Lower a goal, or the objective if none is given. The result tells whether the least value
was reached, and what became of the goal. -/
def descend (goal? : Option (LinearForm α)) : Action α (Bool × Option (LinearForm α)) :=
  fun session =>
    let run := session.solver.tableau.descend session.steps goal?
    let session := ⟨session.solver.adopt run.state.tableau, run.stepsLeft⟩
    match run.result? with
    | some reached => .ok (reached, run.state.goal?) session
    | none => .error .paused session

/-- Repair every row that fell below zero. -/
def repair : Action α Unit := fun session =>
  let run := session.solver.tableau.repair session.steps
  let session := ⟨session.solver.adopt run.state, run.stepsLeft⟩
  match run.result? with
  | some () => .ok () session
  | none => .error .paused session

/-- Lower the objective, then repair the rows that fell below zero on the way. -/
def optimize : Action α Unit := do
  let _ ← descend none
  repair

/-- Refresh the cached values if the solver does so without being asked. -/
def refreshIfAutomatic : Action α Unit :=
  update fun solver => if solver.autoUpdate then solver.refresh else solver

end Action

end SoftSimplex
