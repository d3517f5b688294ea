import SoftSimplex.Proofs.Solver.Changes

/-!
# Identities

A solver keeps the identity that it was created with. Every handle that it hands out bears this
identity, so that a handle tells by itself which solver it came from. This needs no law of
arithmetic, and it holds for commands that pause as well.
-/

namespace SoftSimplex

variable {α : Type} [Scalar α]

/-- No command changes the identity of a solver. -/
theorem Solver.identity_perform (solver : Solver α) (command : Command α) (steps : Nat) :
    (solver.perform command steps).2.identity = solver.identity :=
  (solver.changes_perform command steps).identity

/-- The handle in the reply bears the identity, if there is one. -/
def Reply.Bears (identity : Nat) : Reply → Prop
  | .done => True
  | .variable handle => handle.owner = identity
  | .constraint handle => handle.owner = identity

theorem Action.meets_owner_createConstraint (solver : Solver α) (strength : Strength α) :
    (createConstraint strength : Action α ConstraintHandle).Meets solver
      (fun handle _ => handle.owner = solver.identity) (fun _ _ => True) fun _ => True :=
  Meets.read_bind (Meets.update_bind (Meets.pure rfl))

theorem Command.meets_bears (command : Command α) (solver : Solver α) :
    command.action.Meets solver (fun reply _ => reply.Bears solver.identity) (fun _ _ => True)
      fun _ => True := by
  have finished : ∀ request : Action α Unit, (action.finish request).Meets solver
      (fun reply _ => reply.Bears solver.identity) (fun _ _ => True) fun _ => True :=
    fun request => Action.Meets.bind (request.meets_true solver)
      fun _ _ _ => Action.Meets.pure trivial
  cases command with
  | createVariable =>
      exact Action.Meets.map (Action.Meets.read_bind (Action.Meets.update_bind
        (Action.Meets.pure rfl)))
  | createConstraint strength =>
      exact Action.Meets.map (Action.meets_owner_createConstraint solver strength)
  | copyConstraint source strength =>
      refine Action.Meets.map (Action.Meets.read_bind ?_)
      refine Action.Meets.demand_bind ?_ fun _ _ => trivial
      intro copied _
      apply Action.Meets.bind (Action.meets_owner_createConstraint solver _)
      intro handle between owned
      apply Action.Meets.bind (Action.meets_true _ between)
      exact fun _ _ _ => Action.Meets.update_bind (Action.Meets.pure owned)
  | _ => exact finished _

/-- A solver marks the handles that it hands out as its own. -/
theorem Solver.bears_of_perform {solver : Solver α} {command : Command α} {steps : Nat}
    {reply : Reply} (answered : (solver.perform command steps).1 = .answered reply) :
    reply.Bears solver.identity := by
  have here := perform_meets (command.meets_bears solver) steps
  rwa [answered] at here

end SoftSimplex
