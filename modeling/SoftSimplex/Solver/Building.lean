import SoftSimplex.Solver.References

/-!
# Creating variables and writing constraints

An expression can be written while its constraint is inactive. Every operation first checks all
of its handles and only then changes anything.
-/

namespace SoftSimplex.Action

variable {α : Type} [Scalar α]

/-- Create a variable, referred to by the caller. -/
def createVariable : Action α VariableHandle := do
  let solver ← read
  let (symbol, symbols) := solver.symbols.draw .external
  update fun solver =>
    { solver with symbols, unknowns := solver.unknowns.insert symbol Variable.fresh }
  return ⟨symbol.id, solver.identity⟩

/-- Take one more reference to a variable. -/
def shareVariable (handle : VariableHandle) : Action α Unit := do
  let _ ← demand ((← read).findVariable handle)
  update fun solver =>
    { solver with unknowns := solver.unknowns.modify handle.symbol Variable.retained }

/-- Give up one of the caller's references to a variable. A foreign handle is ignored. -/
def giveUpVariable (handle : VariableHandle) : Action α Unit := do
  if handle.owner = (← read).identity then releaseVariable handle.symbol

/-- Create a constraint with nothing written. A negligible strength means a required one. -/
def createConstraint (strength : Strength α) : Action α ConstraintHandle := do
  let solver ← read
  let handle : ConstraintHandle := ⟨solver.lastConstraint + 1, solver.identity⟩
  update fun solver =>
    { solver with
      lastConstraint := handle.id
      constraints := solver.constraints.insert handle.key
        (Constraint.blank strength.orRequired) }
  return handle

/-- Replace what is known about a constraint. -/
def replaceConstraint (handle : ConstraintHandle) (constraint : Constraint α) : Action α Unit :=
  update fun solver =>
    { solver with constraints := solver.constraints.modify handle.key fun _ => constraint }

/-- Add a multiple of a variable to the side being written. -/
def addTerm (handle : ConstraintHandle) (inside : VariableHandle) (coefficient : α) :
    Action α Unit := do
  let _ ← demand ((← read).findVariable inside)
  let constraint ← demand ((← read).findInactive handle)
  let written := constraint.addTerm inside.symbol coefficient
  replaceConstraint handle written
  trackTerm inside.symbol constraint.expression written.expression

/-- Add a constant to the side being written. -/
def addConstant (handle : ConstraintHandle) (constant : α) : Action α Unit := do
  let constraint ← demand ((← read).findInactive handle)
  replaceConstraint handle (constraint.addConstant constant)

/-- Add a multiple of another constraint's expression to the side being written. -/
def mergeConstraint (handle source : ConstraintHandle) (factor : α) : Action α Unit := do
  let added ← demand ((← read).findConstraint source)
  let constraint ← demand ((← read).findInactive handle)
  let written := constraint.addForm added.expression factor
  replaceConstraint handle written
  added.expression.terms.forM fun term =>
    trackTerm term.1 constraint.expression written.expression

/-- Fix the relation. What was written before becomes its left side. -/
def setRelation (handle : ConstraintHandle) (relation : Relation) : Action α Unit := do
  let constraint ← demand ((← read).findInactive handle)
  if constraint.relation.isSome then refuse .relationFixed
  else replaceConstraint handle (constraint.relate relation)

/-- Create an inactive constraint with the expression and the relation of another. A negligible
strength means that of the source. -/
def copyConstraint (source : ConstraintHandle) (strength : Strength α) :
    Action α ConstraintHandle := do
  let copied ← demand ((← read).findConstraint source)
  let handle ← createConstraint
    (if Scalar.negligible strength.weight then copied.strength else strength)
  mergeConstraint handle source 1
  update fun solver =>
    { solver with constraints := solver.constraints.modify handle.key fun state =>
        { state with relation := copied.relation } }
  return handle

/-- Let a constraint take part in the tableau. -/
def addConstraint (handle : ConstraintHandle) : Action α Unit := do
  let constraint ← demand ((← read).findConstraint handle)
  if constraint.isActive then refuse .activeConstraint
  else activate handle.key

/-- Take a constraint out of the tableau and keep it registered. An unknown handle is
ignored. -/
def withdrawConstraint (handle : ConstraintHandle) : Action α Unit := do
  match (← read).findConstraint handle with
  | .ok _ => deactivate handle.key
  | .error _ => pure ()

/-- Take a constraint out of the tableau and wipe out what was written. An unknown handle is
ignored. -/
def eraseConstraint (handle : ConstraintHandle) : Action α Unit := do
  match (← read).findConstraint handle with
  | .error _ => pure ()
  | .ok _ =>
      deactivate handle.key
      match (← read).constraints.get? handle.key with
      | none => pure ()
      | some constraint =>
          replaceConstraint handle constraint.erased
          constraint.expression.terms.forM fun term => releaseVariable term.1

/-- Take a constraint out of the tableau and remove it. An unknown handle is ignored. -/
def discardConstraint (handle : ConstraintHandle) : Action α Unit := do
  match (← read).findConstraint handle with
  | .ok _ => removeConstraint handle.key
  | .error _ => pure ()

/-- Give a registered constraint another strength. Between two strengths that are not required
the prices change in place. Otherwise the constraint is taken out, if it is active, and let
take part afresh, even if it did not before. -/
def changeStrength (key : Symbol) (strength : Strength α) : Action α Unit := do
  match (← read).constraints.get? key with
  | none => refuse .unknownConstraint
  | some constraint =>
      let assign : Action α Unit := update fun solver =>
        { solver with constraints := solver.constraints.modify key fun state =>
            { state with strength } }
      if constraint.strength == strength then pure ()
      else if constraint.strength.isRequired || strength.isRequired then
        if constraint.isActive then deactivate key
        assign
        activate key
      else
        if constraint.isActive then
          rework fun tableau => tableau.charge constraint.markers.errors
            (strength.weight - constraint.strength.weight)
          optimize
          refreshIfAutomatic
        assign

/-- Give a constraint another strength. A negligible one means a required one. -/
def setStrength (handle : ConstraintHandle) (strength : Strength α) : Action α Unit := do
  let _ ← demand ((← read).findConstraint handle)
  changeStrength handle.key strength.orRequired

end SoftSimplex.Action
