import SoftSimplex.Iteration
import SoftSimplex.Tableau.Choice

/-!
# Primal and dual phases

The primal phase lowers a goal, which is the objective or a form of its own, by letting symbols
grow that make it smaller. The dual phase repairs rows that fell below zero while it keeps the
objective at its least. Each is the iteration of one step.
-/

namespace SoftSimplex.Tableau

variable {α : Type} [Scalar α]

/-- A tableau with a goal to be lowered. -/
structure Descent (α : Type) where
  tableau : Tableau α
  /-- The form to be lowered, in place of the objective. -/
  goal? : Option (LinearForm α)

namespace Descent

/-- The form to be lowered. -/
def goal (descent : Descent α) : LinearForm α :=
  descent.goal?.getD descent.tableau.objective

/-- One pivot. The goal is reached when no symbol makes it smaller, and it is missed when
nothing stops such a symbol from growing. -/
def step (descent : Descent α) : Step (Descent α) Bool :=
  match descent.goal.entering? with
  | none => .halt true
  | some entering =>
      match descent.tableau.leaving? entering with
      | none => .halt false
      | some leaving =>
          match descent.tableau.take? leaving with
          | none => .halt false
          | some (form, rest) =>
              .next
                { tableau := rest.pivot form entering leaving
                  goal? := descent.goal?.map fun goal =>
                    goal.substitute entering (form.isolate entering leaving) }

end Descent

/-- Lower a goal as far as it goes; the result tells whether its least value was reached. -/
def descend (tableau : Tableau α) (steps : Nat) (goal? : Option (LinearForm α)) :
    Run (Descent α) Bool :=
  iterate Descent.step steps ⟨tableau, goal?⟩

/-- Look at the next row that waits for repair. A row that is gone or no longer below zero
needs nothing. Otherwise the cheapest symbol that lifts it enters; a row that nothing lifts is
put back. -/
def repairStep (tableau : Tableau α) : Step (Tableau α) Unit :=
  match tableau.agenda.repairs with
  | [] => .halt ()
  | leaving :: waiting =>
      let rest := { tableau with agenda := { tableau.agenda with repairs := waiting } }
      match rest.form? leaving with
      | none => .next rest
      | some form =>
          let calm :=
            { rest with rows := rest.rows.modify leaving fun row => { row with isQueued := false } }
          if decide (0 ≤ form.constant) || Scalar.negligible form.constant then .next calm
          else
            let without := calm.discard leaving
            match without.lifting? form with
            | some entering => .next (without.pivot form entering leaving)
            | none => .next (without.put leaving form)

/-- Repair rows until none waits. -/
def repair (tableau : Tableau α) (steps : Nat) : Run (Tableau α) Unit :=
  iterate repairStep steps tableau

end SoftSimplex.Tableau
