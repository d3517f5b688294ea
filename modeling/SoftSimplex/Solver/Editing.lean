import SoftSimplex.Solver.Building

/-!
# Editing variables

An edited variable is pulled toward a target by a hidden equality of at most strong strength.
Moving the target changes constants of the tableau and leaves its coefficients alone, so the
rows need only be repaired.
-/

namespace SoftSimplex.Action

variable {α : Type} [Scalar α]

/-- Pull a variable toward its present value. A variable that is edited already only has the
strength of its pull changed. -/
def beginEdit (handle : VariableHandle) (strength : Strength α) : Action α Unit := do
  let found ← demand ((← read).findVariable handle)
  let capped := strength.orRequired.cappedAtStrong
  match found.edit with
  | some key => changeStrength key capped
  | none =>
      let hidden ← createConstraint capped
      setRelation hidden .equal
      addTerm hidden handle 1
      addConstant hidden (-found.value)
      match ← attempt (addConstraint hidden) with
      | .error reason =>
          removeConstraint hidden.key
          refuse reason
      | .ok () =>
          update fun solver =>
            { solver with unknowns := solver.unknowns.modify handle.symbol fun state =>
                { state with edit := some hidden.key, target := found.value } }

/-- Move the target of an edited variable, and repair the rows that fall below zero. -/
def moveTarget (symbol key : Symbol) (previous target : α) : Action α Unit := do
  update fun solver =>
    { solver with unknowns := solver.unknowns.modify symbol fun state =>
        { state with target } }
  match (← read).constraints.get? key with
  | none => pure ()
  | some constraint =>
      rework fun tableau => tableau.shift constraint.markers (target - previous)
  repair
  refreshIfAutomatic

/-- Move the target of a variable, unless its edit was refused. -/
def moveIfBegun (symbol : Symbol) (target : α) (begun : Except Refusal Unit) : Action α Unit := do
  match begun, (← read).unknowns.get? symbol with
  | .ok (), some state =>
      match state.edit with
      | none => pure ()
      | some key => moveTarget symbol key state.target target
  | _, _ => pure ()

/-- Pull a variable toward a target, beginning with medium strength if it is not edited yet.
An unknown handle is ignored. -/
def suggest (handle : VariableHandle) (target : α) : Action α Unit := do
  match (← read).findVariable handle with
  | .error _ => pure ()
  | .ok found =>
      let begun ←
        if found.edit.isSome then pure (.ok ()) else attempt (beginEdit handle Strength.medium)
      moveIfBegun handle.symbol target begun

/-- Let go of an edited variable. An unknown handle is ignored. -/
def endEdit (handle : VariableHandle) : Action α Unit := do
  match (← read).findVariable handle with
  | .error _ => pure ()
  | .ok found =>
      match found.edit with
      | none => pure ()
      | some key =>
          update fun solver =>
            { solver with unknowns := solver.unknowns.modify handle.symbol fun state =>
                { state with edit := none, target := 0 } }
          removeConstraint key

/-- Refresh the cached values of all stale variables. -/
def refreshAll : Action α Unit :=
  update Solver.refresh

/-- Choose whether values are refreshed without being asked for. -/
def setAutoUpdate (autoUpdate : Bool) : Action α Unit :=
  update fun solver => { solver with autoUpdate }

/-- Let go of every edited variable at once. Gives the keys of the hidden constraints in the
order of the variables. -/
def forgetEdits : Action α (List Symbol) := do
  let solver ← read
  let (unknowns, edits) := solver.unknowns.pass [] fun edits state =>
    ({ state with edit := none }, edits ++ state.edit.toList)
  update fun solver => { solver with unknowns }
  return edits

/-- Empty the tableau. Every constraint stays registered and becomes inactive. -/
def emptyTableau : Action α Unit :=
  update fun solver =>
    { solver with
      tableau := { solver.tableau with
        rows := solver.tableau.rows.clear
        objective := solver.tableau.objective.cleared
        agenda := { solver.tableau.agenda with repairs := [] } }
      constraints := (solver.constraints.pass () fun _ state =>
        ({ state with markers := Markers.absent }, ())).1 }

/-- End all edits, and make all constraints inactive if asked to. -/
def reset (dropConstraints : Bool) : Action α Unit := do
  if !(← read).autoUpdate then refreshAll
  let edits ← forgetEdits
  edits.forM removeConstraint
  refreshAll
  if dropConstraints then emptyTableau

end SoftSimplex.Action
