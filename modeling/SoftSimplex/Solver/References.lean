import SoftSimplex.Solver.Activation

/-!
# References

Every constraint holds a reference to each variable in its expression. The last reference to go
takes the variable with it, and with an edited variable goes its hidden constraint, whose own
references go in turn.
-/

namespace SoftSimplex.Action

variable {α : Type} [Scalar α]

/-- Take one reference to a variable away. When it was the last, the variable goes, and the key
of its hidden constraint is left to be dealt with. -/
def dropReference (symbol : Symbol) : Action α (Option Symbol) := do
  match (← read).unknowns.get? symbol with
  | none => return none
  | some found =>
      if 1 < found.references then
        update fun solver =>
          { solver with unknowns := solver.unknowns.modify symbol Variable.released }
        return none
      else
        update fun solver => { solver with unknowns := solver.unknowns.erase symbol }
        return found.edit

/-- Deactivate a constraint, remove it and give up its references. A constraint that goes with
its variable is removed the same way, up to the given depth. -/
def removeWithin : Nat → Symbol → Action α Unit
  | 0, _ => pure ()
  | depth + 1, key => do
      deactivate key
      match (← read).constraints.take? key with
      | none => pure ()
      | some (constraint, rest) =>
          update fun solver => { solver with constraints := rest }
          constraint.expression.terms.forM fun term => do
            match ← dropReference term.1 with
            | none => pure ()
            | some edit => removeWithin depth edit

/-- Deactivate a constraint, remove it and give up its references. No more constraints can go
with it than are registered. -/
def removeConstraint (key : Symbol) : Action α Unit := do
  removeWithin (← read).constraintCount key

/-- Take one reference to a variable away, and remove its hidden constraint if it goes. -/
def releaseVariable (symbol : Symbol) : Action α Unit := do
  match ← dropReference symbol with
  | none => pure ()
  | some edit => removeConstraint edit

/-- Follow a change of an expression: a variable that came into it gains a reference, and one
that went out of it loses one. -/
def trackTerm (symbol : Symbol) (before after : LinearForm α) : Action α Unit := do
  match before.mentions symbol, after.mentions symbol with
  | false, true =>
      update fun solver =>
        { solver with unknowns := solver.unknowns.modify symbol Variable.retained }
  | true, false => releaseVariable symbol
  | _, _ => pure ()

end SoftSimplex.Action
