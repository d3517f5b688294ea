import SoftSimplex.Proofs.Tableau.Choice
import SoftSimplex.Proofs.Tableau.Ordering

/-!
# The phases keep order

Every pivot exchanges a basic symbol for a free one that occurs in a form, so a tableau that is in
order stays so through both phases, whatever the arithmetic does, and wherever they stop. The same
goes for the forms that are written for a tableau: the row of a constraint and the prices.
-/

namespace SoftSimplex.Tableau

variable {α : Type} [Scalar α] {kinds kinds' : Nat → Symbol.Kind} {inside : Nat → Prop}
  {tableau other : Tableau α} {symbol : Symbol} {form : LinearForm α} {markers : Markers}

namespace Descent

variable {descent following : Descent α}

/-- The tableau is in order, and a goal of its own is written in free symbols. -/
structure Ordered (kinds : Nat → Symbol.Kind) (inside : Nat → Prop) (descent : Descent α) :
    Prop where
  tableau : descent.tableau.Ordered kinds inside
  written : ∀ goal, descent.goal? = some goal →
    goal.Over (descent.tableau.FreeWithin kinds inside)

omit [Scalar α] in
theorem Ordered.over_goal (ordered : descent.Ordered kinds inside) :
    descent.goal.Over (descent.tableau.FreeWithin kinds inside) := by
  unfold goal
  cases given : descent.goal? with
  | none => exact ordered.tableau.objective
  | some goal => exact ordered.written goal given

theorem Ordered.step (ordered : descent.Ordered kinds inside)
    (moves : descent.step = .next following) : following.Ordered kinds inside := by
  obtain ⟨entering, leaving, form, chosen, left, found, rfl⟩ := of_step_eq_next moves
  obtain ⟨amount, in_goal, _⟩ := LinearForm.of_entering?_eq_some chosen
  obtain ⟨row, _, member, _⟩ := exists_row_of_leaving? left
  obtain rfl : row = form := form_eq_of_form? member found
  have free := ordered.over_goal _ in_goal
  constructor
  · exact ordered.tableau.exchange member free
  · intro lowered is_lowered
    obtain ⟨goal, given, rfl⟩ := Option.map_eq_some_iff.mp is_lowered
    exact ordered.tableau.toArranged.over_exchange member free (ordered.written goal given)

end Descent

/-- However far the primal phase goes, it keeps order. -/
theorem Ordered.descend (ordered : tableau.Ordered kinds inside) {goal? : Option (LinearForm α)}
    (written : ∀ goal, goal? = some goal → goal.Over (tableau.FreeWithin kinds inside))
    (steps : Nat) : (tableau.descend steps goal?).state.Ordered kinds inside :=
  iterate_invariant (fun _ _ now moves => Descent.Ordered.step now moves) steps _
    ⟨ordered, written⟩

namespace Ordered

variable (ordered : tableau.Ordered kinds inside) {leaving : Symbol} {waiting : List Symbol}
  (queue : tableau.agenda.repairs = leaving :: waiting)

include ordered queue

omit [Scalar α] in
theorem dequeued (absent : tableau.form? leaving = none) :
    (tableau.dequeued waiting).Ordered kinds inside := by
  constructor
  · exact ordered.toArranged.alike ⟨rfl, rfl⟩
  · exact ordered.toAttended.dequeued queue absent

omit [Scalar α] in
theorem calmed : (tableau.calmed leaving waiting).Ordered kinds inside := by
  constructor
  · exact ordered.toArranged.alike (tableau.alike_calmed leaving waiting)
  · exact ordered.toAttended.calmed queue

omit [Scalar α] in
/-- The row that waits first is still there once it has been calmed. -/
theorem mem_calmed (found : tableau.form? leaving = some form) :
    (leaving, form) ∈ (tableau.calmed leaving waiting).equations := by
  rw [(tableau.alike_calmed leaving waiting).equations]
  apply ordered.toArranged.mem_equations _ found
  exact ordered.repairs leaving (queue ▸ List.mem_cons_self)

end Ordered

omit [Scalar α] in
/-- A row that was taken out can be put back. -/
theorem Ordered.put_back (ordered : tableau.Ordered kinds inside)
    (member : (symbol, form) ∈ tableau.equations) :
    ((tableau.discard symbol).put symbol form).Ordered kinds inside := by
  obtain ⟨proper, within⟩ := ordered.basic _ member
  apply (ordered.discard member).put proper within
  refine (ordered.written _ member).mono fun free is_free => ?_
  have apart := is_free.1.id_ne (form?_of_mem member)
  exact Arranged.freeWithin_discard ⟨is_free.1, is_free.2, apart⟩ symbol

theorem Ordered.repairStep (ordered : tableau.Ordered kinds inside)
    (moves : tableau.repairStep = .next other) : other.Ordered kinds inside := by
  cases serves_of_repairStep moves with
  | gone leaving waiting queue absent result =>
      rw [result]
      exact ordered.dequeued queue absent
  | calm leaving waiting form queue _ _ result =>
      rw [result]
      exact ordered.calmed queue
  | lifted leaving waiting form queue found _ entering chosen result =>
      have calm := ordered.calmed queue
      have member := ordered.mem_calmed queue found
      obtain ⟨coefficient, mentioned⟩ := exists_term_of_lifting? chosen
      rw [result]
      exact calm.exchange member (calm.written _ member _ mentioned)
  | stuck leaving waiting form queue found _ _ result =>
      rw [result]
      exact (ordered.calmed queue).put_back (ordered.mem_calmed queue found)

/-- However far the dual phase goes, it keeps order. -/
theorem Ordered.repair (ordered : tableau.Ordered kinds inside) (steps : Nat) :
    (tableau.repair steps).state.Ordered kinds inside :=
  iterate_invariant (fun _ _ now moves => Ordered.repairStep now moves) steps tableau ordered

/-- When the dual phase is done, nothing waits for repair. -/
theorem repairs_repair {steps : Nat} (done : (tableau.repair steps).result? = some ()) :
    (tableau.repair steps).state.agenda.repairs = [] :=
  repairs_eq_nil_of_halt (step_state_of_result steps tableau () done)

omit [Scalar α] in
/-- A symbol out of the range is free in a wider one. -/
theorem Arranged.freeWithin_of_fresh (arranged : tableau.Arranged kinds inside)
    {wider : Nat → Prop} (proper : symbol.Proper kinds) (fresh : ¬ inside symbol.id)
    (within : wider symbol.id) : tableau.FreeWithin kinds wider symbol := by
  refine ⟨⟨proper, (tableau.form?_eq_none_iff symbol).mpr fun row member same => ?_⟩, within⟩
  exact fresh (same ▸ (arranged.basic row member).2)

omit [Scalar α] in
/-- Kinds out of the range may change while nothing waits. -/
theorem Ordered.rekind (ordered : tableau.Ordered kinds inside)
    (agree : ∀ id, inside id → kinds' id = kinds id) (idle : tableau.agenda.repairs = [])
    (untouched : tableau.agenda.touched = []) : tableau.Ordered kinds' inside := by
  have still_free : ∀ symbol, tableau.FreeWithin kinds inside symbol →
      tableau.FreeWithin kinds' inside symbol := by
    intro symbol free
    exact ⟨⟨⟨free.1.1.1, free.1.1.2.trans (agree _ free.2).symm⟩, free.1.2⟩, free.2⟩
  constructor
  · constructor
    · intro row member
      obtain ⟨proper, within⟩ := ordered.basic row member
      exact ⟨⟨proper.1, proper.2.trans (agree _ within).symm⟩, within⟩
    · exact fun row member => (ordered.written row member).mono still_free
    · exact ordered.objective.mono still_free
  · constructor
    · rw [idle]
      exact fun _ member => absurd member List.not_mem_nil
    · rw [untouched]
      exact fun _ member => absurd member List.not_mem_nil
    · exact ordered.flagged

theorem Arranged.over_plusExpressed (arranged : tableau.Arranged kinds inside)
    (spanned : form.Over (tableau.FreeWithin kinds inside))
    (belongs : symbol.isNull = false → symbol.Proper kinds ∧ inside symbol.id) (amount : α) :
    (tableau.plusExpressed form symbol amount).Over (tableau.FreeWithin kinds inside) := by
  unfold plusExpressed
  cases found : tableau.form? symbol with
  | some definition => exact spanned.plusMultiple (arranged.written_of_form? found) amount
  | none =>
      apply spanned.plus
      exact fun present => ⟨⟨(belongs present).1, found⟩, (belongs present).2⟩

/-- An expression over proper symbols of the range is written in free ones. -/
theorem Arranged.over_express (arranged : tableau.Arranged kinds inside)
    (spanned : form.Over fun symbol => symbol.Proper kinds ∧ inside symbol.id) :
    (tableau.express form).Over (tableau.FreeWithin kinds inside) := by
  apply LinearForm.Over.foldl
  · exact LinearForm.Over.ofConstant _
  · exact fun term member _ written =>
      arranged.over_plusExpressed written (fun _ => spanned term member) term.2

/-- The row of a constraint is written in free symbols if its markers are free. -/
theorem Arranged.over_rowFor (arranged : tableau.Arranged kinds inside)
    (spanned : form.Over fun symbol => symbol.Proper kinds ∧ inside symbol.id)
    (marker : markers.marker.isNull = false → tableau.FreeWithin kinds inside markers.marker)
    (second : markers.other.isNull = false → tableau.FreeWithin kinds inside markers.other) :
    (tableau.rowFor form markers).Over (tableau.FreeWithin kinds inside) := by
  have extended : (markers.extend (tableau.express form)).Over
      (tableau.FreeWithin kinds inside) :=
    ((arranged.over_express spanned).plus marker _).plus second 1
  unfold rowFor
  dsimp only
  split
  · exact extended.scale (-1)
  · exact extended

/-- A price may be set on free symbols. -/
theorem Ordered.chargeFresh (ordered : tableau.Ordered kinds inside) {symbols : List Symbol}
    (free : ∀ symbol ∈ symbols, tableau.FreeWithin kinds inside symbol) (amount : α) :
    (tableau.chargeFresh symbols amount).Ordered kinds inside := by
  apply ordered.with_objective
  apply ordered.objective.foldl
  exact fun symbol member _ written => written.plus (fun _ => free symbol member) amount

/-- A price may be changed on any proper symbols of the range. -/
theorem Ordered.charge (ordered : tableau.Ordered kinds inside) {symbols : List Symbol}
    (belong : ∀ symbol ∈ symbols, symbol.Proper kinds ∧ inside symbol.id) (amount : α) :
    (tableau.charge symbols amount).Ordered kinds inside := by
  apply ordered.with_objective
  apply ordered.objective.foldl
  exact fun symbol member _ written =>
    ordered.toArranged.over_plusExpressed written (fun _ => belong symbol member) amount

theorem Ordered.settleObjective (ordered : tableau.Ordered kinds inside) :
    tableau.settleObjective.Ordered kinds inside := by
  unfold Tableau.settleObjective
  split
  · exact ordered.with_objective ordered.objective
  · exact ordered

end SoftSimplex.Tableau
