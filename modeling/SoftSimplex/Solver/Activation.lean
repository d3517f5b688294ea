import SoftSimplex.Solver.Action

/-!
# Activating constraints

Activation turns a registered constraint into a row and makes some symbol of the row basic. An
external symbol is the first choice, then one of the constraint's own markers. A row of dummies
alone is consistent only if its constant vanishes. For any other row an artificial symbol is
made basic first and its value lowered to zero. If that cannot be done, the constraint
contradicts the required ones, and everything drawn for it is withdrawn.
-/

namespace SoftSimplex.Action

variable {α : Type} [Scalar α]

/-- Draw markers for a registered constraint, price the missed amounts among them, and let its
variables wait for a refresh. Gives the row of the constraint. -/
def prepare (key : Symbol) (constraint : Constraint α) : Action α (LinearForm α × Markers) := do
  let solver ← read
  let (markers, symbols) :=
    Markers.draw solver.symbols constraint.relation constraint.strength.isRequired
  let form := solver.tableau.rowFor constraint.expression markers
  update fun solver =>
    let marked := constraint.expression.terms.foldl (fun solver term => solver.markStale term.1)
      solver
    { marked with
      symbols
      tableau := marked.tableau.chargeFresh markers.errors constraint.strength.weight
      constraints := marked.constraints.modify key fun state => { state with markers } }
  return (form, markers)

/-- Take the markers from an active constraint and refund the price of its missed amounts.
Gives the marker, whose row may still be there. -/
def strip (key : Symbol) : Action α (Option Symbol) := do
  match (← read).constraints.get? key with
  | none => return none
  | some constraint =>
      if constraint.isActive then
        update fun solver =>
          { solver with
            constraints := solver.constraints.modify key fun state =>
              { state with markers := Markers.absent }
            tableau := (solver.tableau.charge constraint.markers.errors
              (-constraint.strength.weight)).settleObjective }
        return some constraint.markers.marker
      else return none

/-- Make an artificial symbol free by exchanging it for a restricted symbol of its row. A row
without any is dropped. Tells whether nothing but a constant was dropped. -/
def freeArtificial (artificial : Symbol) : Action α Bool := do
  match (← read).tableau.take? artificial with
  | none => return true
  | some (remaining, rest) =>
      if remaining.isConstant then
        rework fun _ => rest
        return true
      else
        match remaining.restricted? with
        | some entering =>
            rework fun _ => rest.pivot remaining entering artificial
            return true
        | none =>
            rework fun _ => rest
            return false

/-- Make an artificial symbol basic with a row, lower it to zero, and take it out again. Tells
whether that succeeded. -/
def placeArtificially (form : LinearForm α) : Action α Bool := do
  let before := (← read).symbols
  let (artificial, symbols) := before.draw .slack
  update fun solver => { solver with symbols }
  rework fun tableau => tableau.put artificial form
  let (reached, goal?) ← descend (some form)
  let vanishes := goal?.any fun goal => Scalar.negligible goal.constant
  let replaced ← freeArtificial artificial
  rework fun tableau => tableau.forget artificial
  update fun solver => { solver with symbols := solver.symbols.restore before.last }
  return reached && vanishes && replaced

/-- Give a row a place in the tableau, or tell why there is none. -/
def place (form : LinearForm α) (markers : Markers) : Action α (Except Refusal Unit) := do
  match form.subject? [markers.marker, markers.other] with
  | some subject =>
      rework fun tableau => tableau.pivot form subject Symbol.null
      return .ok ()
  | none =>
      if form.hasOnlyDummies then
        if Scalar.negligible form.constant then
          rework fun tableau => tableau.pivot form markers.marker Symbol.null
          return .ok ()
        else return .error .unsatisfied
      else if ← placeArtificially form then return .ok ()
      else return .error .unbound

/-- Take what a refused constraint left behind out of the tableau, and give back all symbols
above the mark. -/
def rollBack (key : Symbol) (reason : Refusal) (mark : Nat) : Action α Unit := do
  let marker? ← strip key
  if reason = .unbound then
    match marker? with
    | some marker => rework fun tableau => tableau.dropMarker marker
    | none => pure ()
    rework fun tableau => tableau.truncate mark
    optimize
  update fun solver => { solver with symbols := solver.symbols.restore mark }

/-- Let a registered constraint take part in the tableau. -/
def activate (key : Symbol) : Action α Unit := do
  let solver ← read
  match solver.constraints.get? key with
  | none => refuse .unknownConstraint
  | some constraint =>
      let (form, markers) ← prepare key constraint
      match ← place form markers with
      | .ok () =>
          optimize
          refreshIfAutomatic
      | .error reason =>
          rollBack key reason solver.symbols.last
          refuse reason

/-- Take an active constraint out of the tableau. -/
def deactivate (key : Symbol) : Action α Unit := do
  match ← strip key with
  | none => pure ()
  | some marker =>
      rework fun tableau => tableau.dropMarker marker
      optimize
      refreshIfAutomatic

end SoftSimplex.Action
