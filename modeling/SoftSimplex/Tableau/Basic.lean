import SoftSimplex.LinearForm

/-!
# The tableau

A tableau is a system of solved equations with an objective to be made small. Each row equates
its basic symbol with a linear form in the other symbols, so setting those to zero gives every
basic symbol its constant. A restricted basic symbol has to stay nonnegative.

Rows change in two ways that others have to hear of. A row of an external symbol may give a
variable a new value: its symbol is noted as touched. Any other row may fall below zero: it is
queued for repair, once, and flagged while it waits.
-/

namespace SoftSimplex

/-- What a basic symbol equals. -/
structure Row (α : Type) where
  form : LinearForm α
  /-- The row waits for repair. -/
  isQueued : Bool

/-- The symbols that something remains to be done for. -/
structure Agenda where
  /-- The rows that fell below zero, the one to be looked at next coming first. -/
  repairs : List Symbol
  /-- The external symbols whose rows came, went or changed, the latest coming first. -/
  touched : List Symbol

/-- Solved equations with an objective. -/
structure Tableau (α : Type) where
  rows : SlotTable (Row α)
  objective : LinearForm α
  agenda : Agenda

namespace Agenda

/-- Nothing remains to be done. -/
def clear : Agenda := ⟨[], []⟩

/-- Note that the row of a symbol came, went or changed, if the symbol is external. -/
def touch (agenda : Agenda) (symbol : Symbol) : Agenda :=
  if symbol.isExternal then { agenda with touched := symbol :: agenda.touched } else agenda

/-- Queue a row that is below zero and not queued yet. -/
def queue {α : Type} [Scalar α] (agenda : Agenda) (symbol : Symbol) (row : Row α) :
    Row α × Agenda :=
  if row.form.constant < 0 && !row.isQueued then
    ({ row with isQueued := true }, { agenda with repairs := symbol :: agenda.repairs })
  else (row, agenda)

/-- Note the change of a row: an external one is touched and any other one queued if need be. -/
def note {α : Type} [Scalar α] (agenda : Agenda) (symbol : Symbol) (row : Row α) :
    Row α × Agenda :=
  if symbol.isExternal then (row, agenda.touch symbol) else agenda.queue symbol row

end Agenda

namespace Tableau

variable {α : Type} [Scalar α]

/-- The tableau without rows and without an objective. -/
def empty : Tableau α := ⟨SlotTable.empty, LinearForm.ofConstant 0, Agenda.clear⟩

/-- What a basic symbol equals. -/
def form? (tableau : Tableau α) (symbol : Symbol) : Option (LinearForm α) :=
  (tableau.rows.get? symbol).map Row.form

/-- The symbol has a row. -/
def isBasic (tableau : Tableau α) (symbol : Symbol) : Bool :=
  tableau.rows.contains symbol

/-- The value of a symbol when all symbols without a row are zero. -/
def value (tableau : Tableau α) (symbol : Symbol) : α :=
  ((tableau.form? symbol).map LinearForm.constant).getD 0

/-- The forms of all rows under their basic symbols, in slot order. -/
def equations (tableau : Tableau α) : List (Symbol × LinearForm α) :=
  tableau.rows.entries.map fun entry => (entry.1, entry.2.form)

/-- Take the row of a symbol out. -/
def take? (tableau : Tableau α) (symbol : Symbol) : Option (LinearForm α × Tableau α) :=
  (tableau.rows.get? symbol).map fun row =>
    (row.form, { tableau with
      rows := tableau.rows.erase symbol
      agenda := tableau.agenda.touch symbol })

/-- Take the row of a symbol out, if there is one, and throw it away. -/
def discard (tableau : Tableau α) (symbol : Symbol) : Tableau α :=
  ((tableau.take? symbol).map Prod.snd).getD tableau

/-- Give a symbol a row. -/
def put (tableau : Tableau α) (symbol : Symbol) (form : LinearForm α) : Tableau α :=
  { tableau with
    rows := tableau.rows.insert symbol ⟨form, false⟩
    agenda := tableau.agenda.touch symbol }

/-- Replace a symbol by its definition in every row and in the objective. -/
def eliminate (tableau : Tableau α) (symbol : Symbol) (definition : LinearForm α) :
    Tableau α :=
  let (rows, agenda) := tableau.rows.pass tableau.agenda fun agenda basic row =>
    if row.form.mentions symbol then
      agenda.note basic { row with form := row.form.substitute symbol definition }
    else (row, agenda)
  { rows, agenda, objective := tableau.objective.substitute symbol definition }

/-- Make a symbol basic: solve a form for it, which used to be the row of the leaving symbol,
replace it everywhere and give it the solved row. -/
def pivot (tableau : Tableau α) (form : LinearForm α) (entering leaving : Symbol) : Tableau α :=
  let definition := form.isolate entering leaving
  (tableau.eliminate entering definition).put entering definition

/-- Take a symbol out of every row and of the objective. -/
def forget (tableau : Tableau α) (symbol : Symbol) : Tableau α :=
  { tableau with
    rows := tableau.rows.map fun row => { row with form := row.form.without symbol }
    objective := tableau.objective.without symbol }

/-- Drop the rows of all symbols above a mark, and take these symbols out of all other rows and
of the objective. -/
def truncate (tableau : Tableau α) (mark : Nat) : Tableau α :=
  let above := tableau.rows.symbols.filter fun symbol => mark < symbol.id
  let kept := above.foldl discard tableau
  let trim (form : LinearForm α) := form.restrict fun symbol => symbol.id ≤ mark
  { kept with
    rows := kept.rows.map fun row => { row with form := trim row.form }
    objective := trim kept.objective }

/-- Add a multiple of a symbol, written without basic symbols. -/
def plusExpressed (tableau : Tableau α) (form : LinearForm α) (symbol : Symbol) (amount : α) :
    LinearForm α :=
  match tableau.form? symbol with
  | some definition => form.plusMultiple definition amount
  | none => form.plus symbol amount

/-- Write a form without basic symbols. -/
def express (tableau : Tableau α) (form : LinearForm α) : LinearForm α :=
  form.terms.foldl (fun sum term => tableau.plusExpressed sum term.1 term.2)
    (LinearForm.ofConstant form.constant)

/-- Charge an amount for each unit of a fresh missed amount. -/
def chargeFresh (tableau : Tableau α) (symbols : List Symbol) (amount : α) : Tableau α :=
  { tableau with
    objective := symbols.foldl (fun form symbol => form.plus symbol amount) tableau.objective }

/-- Charge an amount for each unit of missed amounts, which may be basic by now. -/
def charge (tableau : Tableau α) (symbols : List Symbol) (amount : α) : Tableau α :=
  { tableau with
    objective := symbols.foldl (fun form symbol => tableau.plusExpressed form symbol amount)
      tableau.objective }

/-- Without any term the objective is zero. -/
def settleObjective (tableau : Tableau α) : Tableau α :=
  if tableau.objective.isConstant then
    { tableau with objective := { tableau.objective with constant := 0 } }
  else tableau

@[simp]
theorem equations_empty : (empty : Tableau α).equations = [] := rfl

@[simp]
theorem value_empty (symbol : Symbol) : (empty : Tableau α).value symbol = 0 := rfl

end Tableau

end SoftSimplex
