import SoftSimplex.Constraint
import SoftSimplex.Tableau.Choice

/-!
# Constraints in the tableau

How a constraint comes to be a row, how it is taken out again through its marker, and how the
constant of a constraint is moved while it is in.
-/

namespace SoftSimplex.Tableau

variable {α : Type} [Scalar α]

/-- The row of a constraint that is about to be added: its expression without basic symbols,
extended by its markers, and turned so that the constant is not negative. -/
def rowFor (tableau : Tableau α) (expression : LinearForm α) (markers : Markers) :
    LinearForm α :=
  let extended := markers.extend (tableau.express expression)
  if extended.constant < 0 then extended.scale (-1) else extended

/-- Take the constraint of a marker out: make the marker basic, unless it is, and drop its
row. -/
def dropMarker (tableau : Tableau α) (marker : Symbol) : Tableau α :=
  match tableau.take? marker with
  | some (_, rest) => rest
  | none =>
      match (tableau.markerLeaving? marker).bind fun leaving =>
          (tableau.take? leaving).map fun taken => (leaving, taken) with
      | none => tableau
      | some (leaving, form, rest) => rest.eliminate marker (form.isolate marker leaving)

/-- Raise the constant of a basic symbol's row, and queue the row if need be. -/
def raise (tableau : Tableau α) (symbol : Symbol) (amount : α) : Tableau α :=
  match tableau.rows.get? symbol with
  | none => tableau
  | some row =>
      let (row, agenda) := tableau.agenda.queue symbol
        { row with form := { row.form with constant := row.form.constant + amount } }
      { tableau with rows := tableau.rows.insert symbol row, agenda }

/-- Move one row along a free symbol that grows by an amount, and note the change. -/
def advanceRow (symbol : Symbol) (amount : α) (agenda : Agenda) (basic : Symbol) (row : Row α) :
    Row α × Agenda :=
  match row.form.coefficient? symbol with
  | none => (row, agenda)
  | some coefficient =>
      agenda.note basic
        { row with form := { row.form with
            constant := row.form.constant + coefficient * amount } }

/-- Move every row along a free symbol that grows by an amount. -/
def advance (tableau : Tableau α) (symbol : Symbol) (amount : α) : Tableau α :=
  let (rows, agenda) := tableau.rows.pass tableau.agenda (advanceRow symbol amount)
  { tableau with rows, agenda }

/-- Move the target of an equality by an amount. Its two missed amounts change by it in
opposite directions; if neither is basic, every row that mentions the marker changes. -/
def shift (tableau : Tableau α) (markers : Markers) (amount : α) : Tableau α :=
  if tableau.isBasic markers.marker then tableau.raise markers.marker (-amount)
  else if tableau.isBasic markers.other then tableau.raise markers.other amount
  else tableau.advance markers.marker amount

end SoftSimplex.Tableau
