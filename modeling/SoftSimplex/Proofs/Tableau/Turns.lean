import SoftSimplex.Proofs.Tableau.Divisions

/-!
# Turns

Whatever is done to a tableau is put together from a few changes: a row is taken out or put in, a
symbol is replaced by its definition, symbols are taken out of all forms, and prices and constants
move. A turn is one such change, with the tableau that it is made to and what it is made for.

Turns are linked if each of them starts with the rows and the objective that the one before it has
left. What they leave out concerns the agenda only. The turns of both phases are linked, from the
tableau that a phase starts with to the one that it leaves behind. That turns are linked is one of
the claims about them that compose: true of turns, and of turns after these, they are true of all.

A symbol is replaced because an equation has been solved for it. So the equations that are solved
can be read off the turns.
-/

namespace SoftSimplex

/-- What a tableau is changed for. -/
inductive Occasion where
  /-- The price of a constraint is charged or refunded. -/
  | pricing
  /-- A row finds its place at once. -/
  | seating
  /-- A row is given a place with the help of an artificial symbol. -/
  | trying
  /-- The primal phase lowers a goal. -/
  | lowering
  /-- The dual phase serves a row. -/
  | repairing
  /-- The marker of a constraint is taken out. -/
  | dropping
  /-- What a rejected constraint has brought in is cut off. -/
  | cutting
  /-- A target moves. -/
  | shifting
  /-- All rows and prices go. -/
  | clearing
  deriving DecidableEq

/-- A change of a tableau. -/
inductive Change (α : Type) where
  | take (symbol : Symbol)
  | put (symbol : Symbol) (form : LinearForm α)
  /-- The symbol that an equation is solved for is replaced by the solved form. -/
  | replace (division : Division α)
  | forget (symbol : Symbol)
  | truncate (mark : Nat)
  | chargeFresh (symbols : List Symbol) (amount : α)
  | charge (symbols : List Symbol) (amount : α)
  | settle
  | shift (markers : Markers) (amount : α)
  | clear
  /-- Nothing stops a symbol from growing that would lower the goal, so nothing is done. -/
  | stall (symbol : Symbol)

variable {α : Type} [Scalar α]

namespace Change

/-- The tableau after a change. -/
def run : Change α → Tableau α → Tableau α
  | take symbol, tableau => tableau.discard symbol
  | put symbol form, tableau => tableau.put symbol form
  | replace division, tableau => tableau.eliminate division.entering division.definition
  | forget symbol, tableau => tableau.forget symbol
  | truncate mark, tableau => tableau.truncate mark
  | chargeFresh symbols amount, tableau => tableau.chargeFresh symbols amount
  | charge symbols amount, tableau => tableau.charge symbols amount
  | settle, tableau => tableau.settleObjective
  | shift markers amount, tableau => tableau.shift markers amount
  | clear, tableau =>
      { tableau with
        rows := tableau.rows.clear
        objective := tableau.objective.cleared
        agenda := { tableau.agenda with repairs := [] } }
  | stall _, tableau => tableau

/-- The tableau after some changes, one after another. -/
def runAll (changes : List (Change α)) (tableau : Tableau α) : Tableau α :=
  changes.foldl (fun tableau change => change.run tableau) tableau

/-- A form is solved for a symbol, which becomes basic. -/
def pivot (form : LinearForm α) (entering leaving : Symbol) : List (Change α) :=
  [replace ⟨form, entering, leaving⟩, put entering (form.isolate entering leaving)]

/-- The row of a symbol is taken out and solved for another one. -/
def exchange (form : LinearForm α) (entering leaving : Symbol) : List (Change α) :=
  take leaving :: pivot form entering leaving

omit [Scalar α] in
/-- The change neither puts a row in nor replaces a symbol. -/
def Plain : Change α → Prop
  | put _ _ | replace _ => False
  | _ => True

omit [Scalar α] in
/-- The equation that is solved for a change. -/
def division? : Change α → Option (Division α)
  | replace division => some division
  | _ => none

end Change

/-- One change of a tableau. -/
structure Turn (α : Type) where
  occasion : Occasion
  change : Change α
  before : Tableau α

namespace Turn

/-- What the change leads to. -/
def after (turn : Turn α) : Tableau α := turn.change.run turn.before

/-- Some changes on one occasion, each made to what the one before has left. -/
def series (occasion : Occasion) : Tableau α → List (Change α) → List (Turn α)
  | _, [] => []
  | tableau, change :: rest =>
      ⟨occasion, change, tableau⟩ :: series occasion (change.run tableau) rest

omit [Scalar α] in
/-- The equations that are solved in some turns, in this order. -/
def divisions (turns : List (Turn α)) : List (Division α) :=
  turns.filterMap fun turn => turn.change.division?

/-! ## Claims about turns -/

/-- A claim about turns that lead from one tableau to another composes if it is true where no turn
is taken and rows and objective stay, and if it is true of turns after turns of which it is true. -/
class Composes (claim : Tableau α → List (Turn α) → Tableau α → Prop) : Prop where
  still : ∀ {tableau other : Tableau α}, tableau.Alike other → claim tableau [] other
  append : ∀ {turns later : List (Turn α)} {tableau between other : Tableau α},
    claim tableau turns between → claim between later other → claim tableau (turns ++ later) other

/-- Every single turn is sound. -/
def All (sound : Turn α → Prop) (_ : Tableau α) (turns : List (Turn α)) (_ : Tableau α) : Prop :=
  ∀ turn ∈ turns, sound turn

omit [Scalar α] in
instance (sound : Turn α → Prop) : Composes (All sound) where
  still _ := fun _ member => absurd member List.not_mem_nil
  append first second := List.forall_mem_append.mpr ⟨first, second⟩

namespace Composes

variable {claim : Tableau α → List (Turn α) → Tableau α → Prop} [Composes claim]
  {turns : List (Turn α)} {tableau between other : Tableau α}

omit [Scalar α] in
theorem of_alike (true_of : claim between turns other) (alike : tableau.Alike between) :
    claim tableau turns other :=
  append (still alike) true_of

omit [Scalar α] in
theorem then_alike (true_of : claim tableau turns between) (alike : between.Alike other) :
    claim tableau turns other := by
  have appended : claim tableau (turns ++ []) other := append true_of (still alike)
  rwa [List.append_nil] at appended

end Composes

/-- The first turn starts with the rows and the objective of a tableau, every other one with those
that the turn before has left, and the last one leaves those of another tableau. -/
def Linked : Tableau α → List (Turn α) → Tableau α → Prop
  | tableau, [], other => tableau.Alike other
  | tableau, turn :: rest, other => tableau.Alike turn.before ∧ Linked turn.after rest other

namespace Linked

variable {turns later : List (Turn α)} {tableau between other : Tableau α}

theorem of_alike (linked : Linked between turns other) (alike : tableau.Alike between) :
    Linked tableau turns other := by
  cases turns with
  | nil => exact alike.trans linked
  | cons turn rest => exact ⟨alike.trans linked.1, linked.2⟩

theorem append (linked : Linked tableau turns between) (linked' : Linked between later other) :
    Linked tableau (turns ++ later) other := by
  induction turns generalizing tableau with
  | nil => exact linked'.of_alike linked
  | cons turn rest inductionHypothesis => exact ⟨linked.1, inductionHypothesis linked.2⟩

instance : Composes (Linked (α := α)) where
  still alike := alike
  append := append

/-- What holds of the first tableau and after every turn holds of the last tableau. -/
theorem holds {held : Tableau α → Prop} (linked : Linked tableau turns other)
    (alike : ∀ tableau other : Tableau α, tableau.Alike other → held tableau → held other)
    (start : held tableau) (kept : ∀ turn ∈ turns, held turn.after) : held other := by
  induction turns generalizing tableau with
  | nil => exact alike _ _ linked start
  | cons turn rest inductionHypothesis =>
      rw [List.forall_mem_cons] at kept
      exact inductionHypothesis linked.2 kept.1 kept.2

theorem series (occasion : Occasion) (changes : List (Change α)) (tableau : Tableau α) :
    Linked tableau (series occasion tableau changes) (Change.runAll changes tableau) := by
  induction changes generalizing tableau with
  | nil => exact Tableau.Alike.refl tableau
  | cons change rest inductionHypothesis =>
      exact ⟨Tableau.Alike.refl tableau, inductionHypothesis _⟩

/-- What a series of changes is linked to is what it leads to. -/
theorem alike_runAll {occasion : Occasion} {changes : List (Change α)} {start : Tableau α}
    (linked : Linked tableau (Turn.series occasion start changes) other)
    (alike : tableau.Alike start) : (Change.runAll changes start).Alike other := by
  induction changes generalizing tableau start with
  | nil => exact alike.symm.trans linked
  | cons change rest inductionHypothesis => exact inductionHypothesis linked.2 (.refl _)

end Linked

section Along

variable {σ ρ : Type} {step : σ → Step σ ρ} {turns : σ → List (Turn α)}

/-- The turns of all steps that an iteration takes. -/
def along (step : σ → Step σ ρ) (turns : σ → List (Turn α)) : Nat → σ → List (Turn α)
  | 0, _ => []
  | steps + 1, state =>
      match step state with
      | .halt _ => []
      | .next following => turns state ++ along step turns steps following

omit [Scalar α] in
/-- What composes is true of the turns of an iteration if it is true of those of every step that is
taken. -/
theorem along_composes {claim : Tableau α → List (Turn α) → Tableau α → Prop} [Composes claim]
    {kept : σ → Prop} (look : σ → Tableau α)
    (keeps : ∀ state following, kept state → step state = .next following →
      kept following ∧ claim (look state) (turns state) (look following))
    (steps : Nat) {state : σ} (holds : kept state) :
    claim (look state) (along step turns steps state) (look (iterate step steps state).state) := by
  induction steps generalizing state with
  | zero =>
      have stays : (iterate step 0 state).state = state := by
        cases decision : step state with
        | halt result => rw [iterate_of_halt decision]
        | next following => rw [iterate_zero_of_next decision]
      rw [stays]
      exact Composes.still (Tableau.Alike.refl (look state))
  | succ steps inductionHypothesis =>
      unfold along
      cases decision : step state with
      | halt result =>
          rw [iterate_of_halt decision]
          exact Composes.still (Tableau.Alike.refl (look state))
      | next following =>
          obtain ⟨still, here⟩ := keeps state following holds decision
          rw [iterate_succ_of_next decision]
          exact Composes.append here (inductionHypothesis still)

end Along

end Turn

/-! ## The phases -/

namespace Tableau

variable {tableau other : Tableau α} {marker : Symbol}
  {claim : Tableau α → List (Turn α) → Tableau α → Prop} [Turn.Composes claim]

/-- The turns of the next step of the primal phase. -/
def Descent.turns (descent : Descent α) : List (Turn α) :=
  match descent.division? with
  | none => []
  | some division => Turn.series .lowering descent.tableau
      (Change.exchange division.form division.entering division.leaving)

omit [Turn.Composes claim] in
/-- The primal phase exchanges a basic symbol for one that lowers the goal. -/
theorem Descent.claim_turns {descent following : Descent α}
    (moves : descent.step = .next following)
    (exchanges : ∀ division : Division α, descent.goal.entering? = some division.entering →
      descent.tableau.leaving? division.entering = some division.leaving →
      descent.tableau.form? division.leaving = some division.form →
        claim descent.tableau (Turn.series .lowering descent.tableau
            (Change.exchange division.form division.entering division.leaving))
          (Change.runAll (Change.exchange division.form division.entering division.leaving)
            descent.tableau)) :
    claim descent.tableau descent.turns following.tableau := by
  obtain ⟨division, is_division, chosen, left, found, moved⟩ := exists_division moves
  rw [turns, is_division, moved]
  exact exchanges division chosen left found

/-- What the primal phase comes to when it has taken all its steps: a symbol may be left that
nothing stops from growing. -/
def Descent.lastTurns (descent : Descent α) : List (Turn α) :=
  match descent.goal.entering?, descent.division? with
  | some entering, none => [⟨.lowering, .stall entering, descent.tableau⟩]
  | _, _ => []

theorem Descent.claim_lastTurns {descent : Descent α}
    (stalls : ∀ entering, descent.goal.entering? = some entering →
      claim descent.tableau [⟨.lowering, .stall entering, descent.tableau⟩] descent.tableau) :
    claim descent.tableau descent.lastTurns descent.tableau := by
  unfold lastTurns
  split
  · rename_i entering chosen _
    exact stalls entering chosen
  · exact Turn.Composes.still (.refl _)

/-- The turns of the primal phase within some steps. -/
def descendTurns (tableau : Tableau α) (steps : Nat) (goal? : Option (LinearForm α)) :
    List (Turn α) :=
  Turn.along Descent.step Descent.turns steps ⟨tableau, goal?⟩ ++
    (tableau.descend steps goal?).state.lastTurns

theorem linked_descendTurns (tableau : Tableau α) (steps : Nat)
    (goal? : Option (LinearForm α)) :
    Turn.Linked tableau (tableau.descendTurns steps goal?)
      (tableau.descend steps goal?).state.tableau := by
  have all : True := trivial
  refine Turn.Linked.append (Turn.along_composes Descent.tableau (fun _ _ _ moves =>
    ⟨all, Descent.claim_turns moves fun _ _ _ _ => .series _ _ _⟩) steps all) ?_
  exact Descent.claim_lastTurns fun _ _ => ⟨.refl _, .refl _⟩

/-- The turns of the next step of the dual phase. The row that waits first is no longer flagged when
it is taken out. -/
def repairStepTurns (tableau : Tableau α) : List (Turn α) :=
  match tableau.agenda.repairs with
  | [] => []
  | leaving :: waiting =>
      match tableau.form? leaving with
      | none => []
      | some form =>
          if decide (0 ≤ form.constant) || Scalar.negligible form.constant then []
          else
            match ((tableau.calmed leaving waiting).discard leaving).lifting? form with
            | some entering => Turn.series .repairing (tableau.calmed leaving waiting)
                (Change.exchange form entering leaving)
            | none => Turn.series .repairing (tableau.calmed leaving waiting)
                [.take leaving, .put leaving form]

/-- The dual phase takes turns only where it lifts a row or puts it back. -/
theorem claim_repairStepTurns (moves : tableau.repairStep = .next other)
    (lifts : ∀ leaving waiting form entering, tableau.agenda.repairs = leaving :: waiting →
      tableau.form? leaving = some form →
        ((tableau.calmed leaving waiting).discard leaving).lifting? form = some entering →
          claim (tableau.calmed leaving waiting)
            (Turn.series .repairing (tableau.calmed leaving waiting)
              (Change.exchange form entering leaving))
            (Change.runAll (Change.exchange form entering leaving)
              (tableau.calmed leaving waiting)))
    (puts_back : ∀ leaving waiting form, tableau.agenda.repairs = leaving :: waiting →
      tableau.form? leaving = some form →
        claim (tableau.calmed leaving waiting)
          (Turn.series .repairing (tableau.calmed leaving waiting)
            [.take leaving, .put leaving form])
          (Change.runAll [.take leaving, .put leaving form] (tableau.calmed leaving waiting))) :
    claim tableau tableau.repairStepTurns other := by
  cases serves_of_repairStep moves with
  | gone leaving waiting queue absent result =>
      simp only [repairStepTurns, queue, absent]
      rw [result]
      exact Turn.Composes.still ⟨rfl, rfl⟩
  | calm leaving waiting form queue found high result =>
      simp only [repairStepTurns, queue, found, high, if_true]
      rw [result]
      exact Turn.Composes.still (tableau.alike_calmed leaving waiting)
  | lifted leaving waiting form queue found low entering chosen result =>
      simp only [repairStepTurns, queue, found, low, chosen, Bool.false_eq_true, if_false]
      rw [result]
      exact Turn.Composes.of_alike (lifts leaving waiting form entering queue found chosen)
        (tableau.alike_calmed leaving waiting)
  | stuck leaving waiting form queue found low missing result =>
      simp only [repairStepTurns, queue, found, low, missing, Bool.false_eq_true, if_false]
      rw [result]
      exact Turn.Composes.of_alike (puts_back leaving waiting form queue found)
        (tableau.alike_calmed leaving waiting)

/-- The turns of the dual phase within some steps. -/
def repairTurns (tableau : Tableau α) (steps : Nat) : List (Turn α) :=
  Turn.along repairStep repairStepTurns steps tableau

theorem linked_repairTurns (tableau : Tableau α) (steps : Nat) :
    Turn.Linked tableau (tableau.repairTurns steps) (tableau.repair steps).state := by
  have all : True := trivial
  exact Turn.along_composes id (fun _ _ _ moves => ⟨all, claim_repairStepTurns moves
    (fun _ _ _ _ _ _ _ => .series _ _ _) fun _ _ _ _ _ => .series _ _ _⟩) steps all

/-- How an artificial symbol is made free. -/
def freeingChanges (tableau : Tableau α) (artificial : Symbol) : List (Change α) :=
  match tableau.form? artificial with
  | none => []
  | some remaining =>
      if remaining.isConstant then [.take artificial]
      else
        match remaining.restricted? with
        | some entering => Change.exchange remaining entering artificial
        | none => [.take artificial]

/-- How a marker is taken out. -/
def markerChanges (tableau : Tableau α) (marker : Symbol) : List (Change α) :=
  match tableau.form? marker with
  | some _ => [.take marker]
  | none =>
      match tableau.markerDivision? marker with
      | none => []
      | some division => [.take division.leaving, .replace division]

theorem runAll_markerChanges (tableau : Tableau α) (marker : Symbol) :
    Change.runAll (tableau.markerChanges marker) tableau = tableau.dropMarker marker := by
  unfold markerChanges markerDivision? dropMarker
  rw [take?_eq]
  cases tableau.form? marker with
  | some form => rfl
  | none =>
      cases tableau.markerLeaving? marker with
      | none => rfl
      | some leaving =>
          cases found : tableau.form? leaving <;>
            simp [take?_eq, found, Change.runAll, Change.run, Division.definition]

end Tableau

end SoftSimplex
