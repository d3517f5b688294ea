import SoftSimplex.Proofs.Tableau.Turns

/-!
# Careful turns

Turns are careful if, as long as they divide by mild numbers only, they solve all equations soundly
and keep all coefficients in their class. This is not a matter of single turns, since a solved form
is put in its place after the turn that tells by what it was divided. It composes all the same. In a
tableau that is in order the turns of both phases are careful, and so are those that take a symbol
out.
-/

namespace SoftSimplex

variable {α : Type} [Scalar α] {fine mild : α → Prop} {kinds : Nat → Symbol.Kind}
  {inside : Nat → Prop} {occasion : Occasion}

namespace Turn

/-- If all coefficients are of their class and all divisors are mild, then all equations are solved
soundly, and all coefficients are of their class in the end. -/
def Careful (fine mild : α → Prop) (tableau : Tableau α) (turns : List (Turn α))
    (other : Tableau α) : Prop :=
  tableau.Grained fine → (∀ division ∈ divisions turns, division.Mild mild) →
    other.Grained fine ∧ ∀ division ∈ divisions turns, division.Sound fine

instance (fine mild : α → Prop) : Composes (Careful fine mild) where
  still alike grained _ := ⟨grained.alike alike, fun _ member => absurd member List.not_mem_nil⟩
  append first second grained milds := by
    simp only [divisions, List.filterMap_append, List.forall_mem_append] at milds ⊢
    obtain ⟨between, sound⟩ := first grained milds.1
    obtain ⟨last, sound'⟩ := second between milds.2
    exact ⟨last, sound, sound'⟩

@[simp]
theorem divisions_series (occasion : Occasion) (tableau : Tableau α) (changes : List (Change α)) :
    divisions (series occasion tableau changes) = changes.filterMap Change.division? := by
  induction changes generalizing tableau with
  | nil => rfl
  | cons change rest inductionHypothesis =>
      have later := inductionHypothesis (change.run tableau)
      unfold divisions at later ⊢
      rw [series, List.filterMap_cons, List.filterMap_cons, later]

/-- Plain changes keep coefficients in their class. -/
theorem grained_plain {tableau : Tableau α} {change : Change α} (plain : change.Plain)
    (grained : tableau.Grained fine) : (change.run tableau).Grained fine := by
  cases change with
  | take symbol => exact grained.discard symbol
  | put | replace => exact plain.elim
  | forget symbol => exact grained.forget symbol
  | truncate mark => exact grained.truncate mark
  | chargeFresh symbols amount => exact grained.chargeFresh symbols amount
  | charge symbols amount => exact grained.charge symbols amount
  | settle => exact grained.settleObjective
  | shift markers amount => exact grained.shift markers amount
  | clear => exact .cleared tableau _
  | stall => exact grained

/-- Changes for which nothing is divided have only to keep coefficients in their class. -/
theorem careful_series {tableau : Tableau α} {changes : List (Change α)}
    (undivided : changes.filterMap Change.division? = [])
    (keeps : tableau.Grained fine → (Change.runAll changes tableau).Grained fine) :
    Careful fine mild tableau (series occasion tableau changes)
      (Change.runAll changes tableau) := by
  intro grained _
  rw [divisions_series, undivided]
  exact ⟨keeps grained, fun _ member => absurd member List.not_mem_nil⟩

/-- Nothing is divided for a plain change. -/
theorem careful_plain {change : Change α} (plain : change.Plain) (tableau : Tableau α)
    (occasion : Occasion) :
    Careful fine mild tableau (series occasion tableau [change]) (change.run tableau) := by
  have undivided : [change].filterMap Change.division? = [] := by
    cases change <;> first | exact plain.elim | rfl
  exact careful_series undivided (grained_plain plain)

end Turn

namespace Tableau

variable {tableau other : Tableau α} {form : LinearForm α} {entering leaving symbol : Symbol}

theorem careful_take (tableau : Tableau α) (occasion : Occasion) (symbol : Symbol) :
    Turn.Careful fine mild tableau (Turn.series occasion tableau [.take symbol])
      (tableau.discard symbol) :=
  Turn.careful_series rfl fun grained => grained.discard symbol

/-- A form of the class is solved for a symbol that occurs in it. -/
theorem careful_pivot (grain : Scalar.Grain fine mild) (tableau : Tableau α)
    (row : form.Grained fine) (apart : entering.id ≠ leaving.id) {divisor : α}
    (found : form.coefficient? entering = some divisor) :
    Turn.Careful fine mild tableau
      (Turn.series occasion tableau (Change.pivot form entering leaving))
      (tableau.pivot form entering leaving) := by
  intro grained milds
  rw [Turn.divisions_series] at milds ⊢
  have mild_divisor : Division.Mild mild ⟨form, entering, leaving⟩ :=
    milds _ List.mem_cons_self
  exact ⟨grained.pivot grain row mild_divisor,
    List.forall_mem_singleton.mpr (.of_ids apart found (row.of_coefficient?_eq_some found))⟩

/-- A row is taken out and put back. -/
theorem careful_put_back (member : (leaving, form) ∈ tableau.equations) :
    Turn.Careful fine mild tableau
      (Turn.series occasion tableau [.take leaving, .put leaving form])
      ((tableau.discard leaving).put leaving form) :=
  Turn.careful_series rfl fun grained =>
    (grained.discard leaving).put leaving (grained.rows _ member)

/-- A row is solved for a symbol that it mentions. -/
theorem Ordered.careful_exchange (grain : Scalar.Grain fine mild)
    (ordered : tableau.Ordered kinds inside) (member : (leaving, form) ∈ tableau.equations)
    {divisor : α} (found : form.coefficient? entering = some divisor) :
    Turn.Careful fine mild tableau
      (Turn.series occasion tableau (Change.exchange form entering leaving))
      ((tableau.discard leaving).pivot form entering leaving) := by
  intro grained milds
  rw [Turn.divisions_series] at milds ⊢
  have mild_divisor : Division.Mild mild ⟨form, entering, leaving⟩ :=
    milds _ List.mem_cons_self
  exact ⟨(grained.discard leaving).pivot grain (grained.rows _ member) mild_divisor,
    List.forall_mem_singleton.mpr (ordered.sound_division grained member found)⟩

theorem Descent.Ordered.careful_turns (grain : Scalar.Grain fine mild)
    {descent following : Descent α} (ordered : descent.Ordered kinds inside)
    (moves : descent.step = .next following) :
    Turn.Careful fine mild descent.tableau descent.turns following.tableau := by
  apply Descent.claim_turns moves
  intro division _ left found
  obtain ⟨row, divisor, member, mentioned⟩ := exists_row_of_leaving? left
  obtain rfl : row = division.form := form_eq_of_form? member found
  exact ordered.tableau.careful_exchange grain member mentioned

/-- The turns of the primal phase are careful. -/
theorem Ordered.careful_descendTurns (grain : Scalar.Grain fine mild)
    (ordered : tableau.Ordered kinds inside) {goal? : Option (LinearForm α)}
    (written : ∀ goal, goal? = some goal → goal.Over (tableau.FreeWithin kinds inside))
    (steps : Nat) : Turn.Careful fine mild tableau (tableau.descendTurns steps goal?)
      (tableau.descend steps goal?).state.tableau := by
  have start : Descent.Ordered kinds inside ⟨tableau, goal?⟩ := ⟨ordered, written⟩
  refine Turn.Composes.append (Turn.along_composes Descent.tableau
    (fun _ _ now moves => ⟨now.step moves, now.careful_turns grain moves⟩) steps start) ?_
  exact Descent.claim_lastTurns fun _ _ grained _ => ⟨grained, nofun⟩

theorem Ordered.careful_repairStepTurns (grain : Scalar.Grain fine mild)
    (ordered : tableau.Ordered kinds inside) (moves : tableau.repairStep = .next other) :
    Turn.Careful fine mild tableau tableau.repairStepTurns other := by
  apply claim_repairStepTurns moves
  · intro leaving waiting form entering queue found chosen
    obtain ⟨divisor, mentioned⟩ := exists_term_of_lifting? chosen
    have divided : form.coefficient? entering = some divisor :=
      (form.coefficient?_eq_some_iff entering divisor).mpr ⟨_, mentioned, rfl, rfl⟩
    exact (ordered.calmed queue).careful_exchange grain (ordered.mem_calmed queue found) divided
  · intro leaving waiting form queue found
    exact careful_put_back (ordered.mem_calmed queue found)

/-- The turns of the dual phase are careful. -/
theorem Ordered.careful_repairTurns (grain : Scalar.Grain fine mild)
    (ordered : tableau.Ordered kinds inside) (steps : Nat) :
    Turn.Careful fine mild tableau (tableau.repairTurns steps) (tableau.repair steps).state :=
  Turn.along_composes id (fun _ _ now moves =>
    ⟨Ordered.repairStep now moves, now.careful_repairStepTurns grain moves⟩) steps ordered

/-- The turns that make a basic symbol free are careful. -/
theorem Ordered.careful_freeing (grain : Scalar.Grain fine mild)
    (ordered : tableau.Ordered kinds inside) (proper : symbol.Proper kinds) :
    Turn.Careful fine mild tableau
      (Turn.series occasion tableau (tableau.freeingChanges symbol))
      (Change.runAll (tableau.freeingChanges symbol) tableau) := by
  unfold freeingChanges
  cases found : tableau.form? symbol with
  | none => exact Turn.Composes.still (.refl _)
  | some remaining =>
      dsimp only
      split
      · exact careful_take tableau occasion symbol
      · cases chosen : remaining.restricted? with
        | none => exact careful_take tableau occasion symbol
        | some entering =>
            obtain ⟨_, coefficient, mentioned⟩ := LinearForm.of_restricted?_eq_some chosen
            have divided : remaining.coefficient? entering = some coefficient :=
              (remaining.coefficient?_eq_some_iff entering coefficient).mpr
                ⟨_, mentioned, rfl, rfl⟩
            exact ordered.careful_exchange grain (ordered.mem_equations proper found) divided

/-- The turns that take a marker out are careful. The solved row is dropped, so the size of its
divisor does not matter. -/
theorem Ordered.careful_marker (counts : ∀ number : α, Scalar.Counts number → fine number)
    (ordered : tableau.Ordered kinds inside) (symbol : Symbol) :
    Turn.Careful fine mild tableau (Turn.series occasion tableau (tableau.markerChanges symbol))
      (tableau.dropMarker symbol) := by
  rw [← runAll_markerChanges]
  unfold markerChanges
  cases tableau.form? symbol with
  | some form => exact careful_take tableau occasion symbol
  | none =>
      cases solved : tableau.markerDivision? symbol with
      | none => exact Turn.Composes.still (.refl _)
      | some division =>
          obtain ⟨divisor, member, divided⟩ := exists_row_of_markerDivision? solved
          intro grained _
          rw [Turn.divisions_series]
          exact ⟨(grained.discard division.leaving).eliminate counts _ _,
            List.forall_mem_singleton.mpr (ordered.sound_division grained member divided)⟩

end Tableau

end SoftSimplex
