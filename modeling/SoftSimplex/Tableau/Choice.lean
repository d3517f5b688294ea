import SoftSimplex.Tableau.Basic

/-!
# Choosing where to pivot

Each rule walks over rows or terms in slot order. A symbol enters the objective's row because
it makes the objective smaller, or a violated row because it costs the least for what it
repairs. A row leaves because it is the first to reach zero.
-/

namespace SoftSimplex

/-- A symbol together with the ratio that speaks for it. -/
structure Candidate (α : Type) where
  symbol : Symbol
  ratio : α

namespace Candidate

variable {α : Type} [Scalar α]

/-- The candidate of the smaller ratio; the earlier one, or none, if that is not decided. -/
def smaller (best : Option (Candidate α)) (candidate : Candidate α) : Option (Candidate α) :=
  match best with
  | none => if Scalar.belowLargest candidate.ratio then some candidate else none
  | some current => if candidate.ratio < current.ratio then some candidate else some current

/-- The candidate of the smaller ratio, or of the smaller number among close ratios. -/
def smallerOrOlder (best : Option (Candidate α)) (candidate : Candidate α) :
    Option (Candidate α) :=
  match best with
  | none => if Scalar.belowLargest candidate.ratio then some candidate else none
  | some current =>
      if candidate.ratio < current.ratio ||
          Scalar.close candidate.ratio current.ratio &&
            decide (candidate.symbol.id < current.symbol.id) then
        some candidate
      else some current

end Candidate

namespace LinearForm

variable {α : Type} [Scalar α]

/-- The first symbol, dummies apart, whose increase makes the form smaller. -/
def entering? (goal : LinearForm α) : Option Symbol :=
  (goal.terms.find? fun term => !term.1.isDummy && decide (term.2 < 0)).map Prod.fst

/-- The symbol that can become basic together with a new row: an external one if there is any,
and otherwise a marker that is restricted and has a negative coefficient. -/
def subject? (form : LinearForm α) (markers : List Symbol) : Option Symbol :=
  match form.terms.find? fun term => term.1.isExternal with
  | some term => some term.1
  | none => markers.find? fun symbol =>
      symbol.isRestricted && (form.coefficient? symbol).any fun coefficient =>
        decide (coefficient < 0)

/-- Only dummies occur. -/
def hasOnlyDummies (form : LinearForm α) : Bool :=
  form.terms.all fun term => term.1.isDummy

/-- The first restricted symbol. -/
def restricted? (form : LinearForm α) : Option Symbol :=
  (form.terms.map Prod.fst).find? Symbol.isRestricted

end LinearForm

namespace Tableau

variable {α : Type} [Scalar α]

/-- The restricted rows that fall when a symbol grows, with the growth that takes each to
zero. -/
def bounds (tableau : Tableau α) (entering : Symbol) : List (Candidate α) :=
  tableau.equations.filterMap fun (basic, form) =>
    (form.coefficient? entering).bind fun coefficient =>
      if !basic.isRestricted || decide (0 < coefficient) then none
      else some ⟨basic, -form.constant / coefficient⟩

/-- The restricted row that is the first to reach zero when a symbol grows. -/
def leaving? (tableau : Tableau α) (entering : Symbol) : Option Symbol :=
  ((tableau.bounds entering).foldl Candidate.smallerOrOlder none).map Candidate.symbol

/-- The symbols that can lift a row, each with what lifting costs. -/
def lifts (tableau : Tableau α) (form : LinearForm α) : List (Candidate α) :=
  form.terms.filterMap fun (symbol, coefficient) =>
    if symbol.isDummy || decide (coefficient ≤ 0) then none
    else some ⟨symbol, tableau.objective.coefficient symbol / coefficient⟩

/-- The symbol that lifts a row at the least cost. -/
def lifting? (tableau : Tableau α) (form : LinearForm α) : Option Symbol :=
  ((tableau.lifts form).foldl Candidate.smaller none).map Candidate.symbol

/-- The rows other than external ones that mention a marker, on the side given by the test of
its coefficient, with the ratio of the constant to the coefficient's size. -/
def markerBounds (tableau : Tableau α) (marker : Symbol) (falling : Bool) :
    List (Candidate α) :=
  tableau.equations.filterMap fun (basic, form) =>
    (form.coefficient? marker).bind fun coefficient =>
      if basic.isExternal || decide (coefficient < 0) != falling then none
      else if falling then some ⟨basic, -form.constant / coefficient⟩
      else some ⟨basic, form.constant / coefficient⟩

/-- The last external row that mentions a marker. -/
def lastExternal? (tableau : Tableau α) (marker : Symbol) : Option Symbol :=
  (tableau.equations.reverse.find? fun (basic, form) =>
    basic.isExternal && form.mentions marker).map Prod.fst

/-- The row to be given up for a marker: among the rows other than external ones the tightest
that falls when the marker grows, then the tightest of the rest, then an external row. -/
def markerLeaving? (tableau : Tableau α) (marker : Symbol) : Option Symbol :=
  let tightest (falling : Bool) :=
    ((tableau.markerBounds marker falling).foldl Candidate.smaller none).map Candidate.symbol
  (tightest true <|> tightest false) <|> tableau.lastExternal? marker

end Tableau

end SoftSimplex
