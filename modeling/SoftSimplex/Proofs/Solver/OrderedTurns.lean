import SoftSimplex.Proofs.Solver.Warrant
import SoftSimplex.Proofs.Tableau.Separate

/-!
# Turns of solvers in which everything is accounted for

Where everything is accounted for, the ranges and kinds of symbols are known for every part of an
action, and every turn is made to a tableau that is in order. So a claim that composes, and that is
true of whatever can be done to a tableau in order, is true of all turns of all commands. Two claims
of this kind are that basic and free symbols stay apart and that divisions are sound.
-/

namespace SoftSimplex

variable {α : Type} [Scalar α] {kinds : Nat → Symbol.Kind} {mark : Nat} {inside : Nat → Prop}
  {solver before : Solver α} {key : Symbol} {constraint : Constraint α} {form : LinearForm α}
  {claim : Tableau α → List (Turn α) → Tableau α → Prop}

/-- The row that a constraint is given once its markers are drawn. -/
abbrev Solver.drafted (solver : Solver α) (constraint : Constraint α) : LinearForm α :=
  solver.tableau.rowFor constraint.expression (solver.marking constraint).markers

/-- A claim is orderly if it is true of plain changes that keep basic and free symbols apart, of the
phases in a tableau that is in order and of taking a symbol out of it, and if it is true when the
row of a constraint is solved for a symbol or tried at an artificial one. -/
structure Turn.Orderly (claim : Tableau α → List (Turn α) → Tableau α → Prop) : Prop where
  plain : ∀ {tableau : Tableau α} (occasion : Occasion) (change : Change α), change.Plain →
    tableau.Separate → (change.run tableau).Separate →
      claim tableau (Turn.series occasion tableau [change]) (change.run tableau)
  descends : ∀ {kinds : Nat → Symbol.Kind} {inside : Nat → Prop} {tableau : Tableau α}
    {goal? : Option (LinearForm α)}, tableau.Ordered kinds inside →
      (∀ goal, goal? = some goal → goal.Over (tableau.FreeWithin kinds inside)) → ∀ steps,
        claim tableau (tableau.descendTurns steps goal?)
          (tableau.descend steps goal?).state.tableau
  repairs : ∀ {kinds : Nat → Symbol.Kind} {inside : Nat → Prop} {tableau : Tableau α},
    tableau.Ordered kinds inside → ∀ steps,
      claim tableau (tableau.repairTurns steps) (tableau.repair steps).state
  frees : ∀ {kinds : Nat → Symbol.Kind} {inside : Nat → Prop} {tableau : Tableau α}
    {symbol : Symbol}, tableau.Ordered kinds inside → symbol.Proper kinds →
      claim tableau (Turn.series .trying tableau (tableau.freeingChanges symbol))
        (Change.runAll (tableau.freeingChanges symbol) tableau)
  drops : ∀ {kinds : Nat → Symbol.Kind} {inside : Nat → Prop} {tableau : Tableau α}
    {symbol : Symbol}, tableau.Ordered kinds inside → (symbol.id ≠ 0 → symbol.Proper kinds) →
      claim tableau (Turn.series .dropping tableau (tableau.markerChanges symbol))
        (tableau.dropMarker symbol)
  seats : ∀ {kinds : Nat → Symbol.Kind} {solver : Solver α} {key subject : Symbol}
    {constraint : Constraint α}, solver.Accounted kinds →
      solver.constraints.get? key = some constraint →
      (solver.drafted constraint).subject? [(solver.marking constraint).markers.marker,
          (solver.marking constraint).markers.other] = some subject ∨
        subject = (solver.marking constraint).markers.marker →
      claim (solver.prepared key constraint).tableau
        (Turn.series .seating (solver.prepared key constraint).tableau
          (Change.pivot (solver.drafted constraint) subject Symbol.null))
        ((solver.prepared key constraint).tableau.pivot (solver.drafted constraint) subject
          Symbol.null)
  tries : ∀ {kinds : Nat → Symbol.Kind} {solver : Solver α} {key : Symbol}
    {constraint : Constraint α}, solver.Accounted kinds →
      solver.constraints.get? key = some constraint →
      claim (solver.prepared key constraint).tableau
        (Turn.series .trying (solver.prepared key constraint).tableau
          [.put ((solver.prepared key constraint).symbols.draw .slack).1
            (solver.drafted constraint)])
        ((solver.prepared key constraint).tableau.put
          ((solver.prepared key constraint).symbols.draw .slack).1 (solver.drafted constraint))

namespace Solver

/-- Whatever is written into a constraint that takes no part, it stays placed. -/
theorem Accounted.placed_of_revises (accounted : solver.Accounted kinds)
    (placed : constraint.Placed kinds solver.symbols.last)
    (absent : constraint.markers = Markers.absent) {written : Constraint α}
    (revises : solver.Revises constraint written) :
    written.Placed kinds solver.symbols.last ∧ written.markers = Markers.absent := by
  cases revises with
  | addTerm found coefficient =>
      exact ⟨placed.addTerm absent (accounted.proper_of_findVariable found) coefficient, absent⟩
  | addConstant constant => exact ⟨placed.addConstant absent constant, absent⟩
  | addForm found factor =>
      exact ⟨placed.addForm absent (accounted.filed.placed _ _ found).expression factor, absent⟩
  | relate relation => exact ⟨placed.relate absent relation, absent⟩
  | erase => exact ⟨.erased absent, absent⟩
  | strengthen strength => exact ⟨.of_absent placed.expression absent, absent⟩

theorem Accountable.write (accountable : solver.Accountable) (idle : solver.constraints.Idle key)
    {change : Constraint α → Constraint α}
    (revises : ∀ constraint, solver.constraints.get? key = some constraint →
      solver.Revises constraint (change constraint)) :
    ({ solver with constraints := solver.constraints.modify key change } :
      Solver α).Accountable := by
  obtain ⟨kinds, accounted⟩ := accountable
  refine ⟨kinds, accounted.with_constraints (accounted.filed.modify fun state found => ?_)⟩
  have ⟨placed, absent⟩ := accounted.placed_of_revises (accounted.filed.placed key state found)
    (idle state found) (revises state found)
  exact ⟨placed, Or.inl absent⟩

theorem Accountable.create (accountable : solver.Accountable) (strength : Strength α) :
    ({ solver with
      lastConstraint := solver.lastConstraint + 1
      constraints := solver.constraints.insert ⟨solver.lastConstraint + 1, .external⟩
        (Constraint.blank strength) } : Solver α).Accountable := by
  obtain ⟨kinds, accounted⟩ := accountable
  exact ⟨kinds, ⟨⟨⟨accounted.registered, accounted.waiting⟩, accounted.ordered,
    accounted.untouched⟩, accounted.filed.insert (.blank strength) rfl _, accounted.rested⟩⟩

/-- The symbols that are drawn for a constraint are free, so its row may be solved for them. -/
theorem Accounted.free_subject {subject : Symbol} (accounted : solver.Accounted kinds)
    (found : solver.constraints.get? key = some constraint)
    (chosen : (solver.drafted constraint).subject? [(solver.marking constraint).markers.marker,
        (solver.marking constraint).markers.other] = some subject ∨
      subject = (solver.marking constraint).markers.marker) :
    (solver.prepared key constraint).tableau.FreeWithin (drawn kinds solver constraint)
      (· ≤ (solver.prepared key constraint).symbols.last) subject := by
  rcases chosen with chosen | rfl
  · refine (accounted.over_row found).of_subject? ?_ chosen
    exact List.forall_mem_cons.mpr ⟨accounted.free_prepared (Or.inl rfl),
      List.forall_mem_singleton.mpr (accounted.free_prepared (Or.inr rfl))⟩
  · exact accounted.free_prepared (Or.inl rfl)
      (fit_marking kinds solver constraint).marker_proper.isNull_eq_false

end Solver

namespace Turn.Orderly

open SoftSimplex.Action Solver Journal

variable [Turn.Composes claim] (orderly : Turn.Orderly claim)

include orderly

section Work

variable (workable : solver.Workable kinds mark inside)

include workable

theorem ensures_descend {goal? : Option (LinearForm α)}
    (written : ∀ goal, goal? = some goal → goal.Over (solver.tableau.FreeWithin kinds inside)) :
    (Journal.descend goal?).Ensures claim solver :=
  fun steps => claim_descend (orderly.descends workable.ordered written steps)

theorem ensures_repair : Journal.repair.Ensures claim solver :=
  fun steps => claim_repair (orderly.repairs workable.ordered steps)

theorem ensures_optimize : Journal.optimize.Ensures claim solver := by
  have written : ∀ goal : LinearForm α, none = some goal →
      goal.Over (solver.tableau.FreeWithin kinds inside) :=
    fun goal given => absurd given.symm (Option.some_ne_none goal)
  have descends : (Action.descend none).Meets solver
      (fun _ after => Reworked kinds mark inside solver after) (fun _ _ => False) InOrder :=
    meets_descend workable written
  apply (orderly.ensures_descend workable written).bind descends
  exact fun _ between reworked => orderly.ensures_repair reworked.toWorkable

theorem ensures_settle : Journal.settle.Ensures claim solver :=
  (orderly.ensures_optimize workable).before

end Work

/-- The artificial symbol has no row until it is given one, and none when it is forgotten. -/
theorem ensures_placeArtificially
    (workable : solver.Workable kinds mark (· ≤ solver.symbols.last))
    (proper : (solver.symbols.draw .slack).1.Proper kinds)
    (spanned : form.Over (solver.tableau.FreeWithin kinds (· ≤ solver.symbols.last)))
    (puts : claim solver.tableau
      (Turn.series .trying solver.tableau [.put (solver.symbols.draw .slack).1 form])
      (solver.tableau.put (solver.symbols.draw .slack).1 form)) :
    (Journal.placeArtificially form).Ensures claim solver := by
  obtain ⟨filed, written⟩ := workable.reworked_artificial proper spanned
  have descends : (Action.descend (some form)).Meets _ (fun _ after =>
      Reworked kinds mark (· ≤ solver.symbols.last + 1) _ after) (fun _ _ => False) InOrder :=
    meets_descend filed.toWorkable written
  apply Ensures.reading
  apply Ensures.after_update
  refine Ensures.rework_bind ?_ ?_
  · exact puts
  apply (orderly.ensures_descend filed.toWorkable written).bind descends
  rintro ⟨reached, goal?⟩ tried lowered
  have frees : (Action.freeArtificial (solver.symbols.draw .slack).1).Meets tried
      (fun _ after => Reworked kinds mark (· ≤ solver.symbols.last + 1) tried after ∧
        after.tableau.form? (solver.symbols.draw .slack).1 = none) (fun _ _ => False) InOrder :=
    meets_freeArtificial lowered.toWorkable proper
  apply (ensures_freeArtificial (orderly.frees lowered.ordered proper)).bind frees
  rintro replaced freed ⟨cleared, absent⟩
  exact Ensures.before (Ensures.rework (orderly.plain .trying (.forget _) trivial
    cleared.ordered.separate (cleared.ordered.forget absent).separate))

theorem ensures_strip (workable : solver.Workable kinds mark inside)
    (belong : ∀ constraint, solver.constraints.get? key = some constraint →
      ∀ symbol ∈ constraint.markers.errors, symbol.Proper kinds ∧ inside symbol.id) :
    (Journal.strip key).Ensures claim solver := by
  apply Journal.ensures_strip
  intro constraint found _
  have charged := workable.ordered.charge (belong constraint found) (-constraint.strength.weight)
  have refunds := orderly.plain .pricing (.charge constraint.markers.errors
    (-constraint.strength.weight)) trivial workable.ordered.separate charged.separate
  have settles := orderly.plain .pricing .settle trivial charged.separate
    charged.settleObjective.separate
  exact Turn.Composes.append refunds settles

/-- A marker is taken out of a stripped solver, and something follows. -/
theorem ensures_dropMarker_bind {ρ : Type} {following : Unit → Action α ρ} {above : Nat}
    {second : ∀ result, Journal (following result)}
    (workable : solver.Workable kinds mark (· ≤ above)) (placed : constraint.Placed kinds above)
    (there : ∀ after, Reworked kinds mark (· ≤ above) (solver.stripped key constraint) after →
      (second ()).Ensures claim after) :
    ((Journal.dropMarker constraint.markers.marker).bind second).Ensures claim
      (solver.stripped key constraint) := by
  have stripped := workable.stripped placed.proper_errors key
  apply Ensures.rework_bind
  · exact orderly.drops stripped.ordered fun present =>
      (placed.proper_markers (Or.inl rfl) present).1
  · exact there _ (workable.withdrawn placed key)

section Activation

variable (accounted : solver.Accounted kinds)

include accounted

theorem ensures_deactivate (key : Symbol) : (Journal.deactivate key).Ensures claim solver := by
  apply Journal.ensures_deactivate
  · exact orderly.ensures_strip accounted.toWorkable fun constraint found =>
      (accounted.filed.placed key constraint found).proper_errors
  · intro constraint found _
    exact orderly.ensures_dropMarker_bind accounted.toWorkable
      (accounted.filed.placed key constraint found)
      fun after dropped => orderly.ensures_settle dropped.toWorkable

variable (found : solver.constraints.get? key = some constraint)

include found

/-- What has been drawn for the constraint is taken out, whatever the reason. -/
theorem ensures_rollBack (reason : Refusal)
    (reworked : Reworked (drawn kinds solver constraint) solver.symbols.last
      (· ≤ (solver.prepared key constraint).symbols.last) (solver.prepared key constraint)
        before) :
    (Journal.rollBack key reason solver.symbols.last).Ensures claim before := by
  have placed := (accounted.filed_prepared found).placed key _ (get?_prepared found)
  have filed : before.constraints.get? key = some (solver.marking constraint) := by
    rw [reworked.constraints]
    exact get?_prepared found
  refine Journal.ensures_rollBack filed (solver.marking_active constraint) ?_ fun _ => ?_
  · apply orderly.ensures_strip reworked.toWorkable
    intro state there
    obtain rfl := Option.some.inj (filed.symm.trans there)
    exact placed.proper_errors
  · apply orderly.ensures_dropMarker_bind reworked.toWorkable placed
    intro after dropped
    have cut := dropped.ordered.truncate solver.symbols.last
    have truncated := dropped.reworked_adopt cut
      (dropped.ordered.reports_truncate solver.symbols.last)
    exact Ensures.rework_bind
      (orderly.plain .cutting (.truncate _) trivial dropped.ordered.separate cut.separate)
      (orderly.ensures_optimize truncated.toWorkable).before

/-- The row of the constraint finds its place at a symbol that is drawn for it, or it is tried. -/
theorem ensures_place : (Journal.place (solver.drafted constraint)
    (solver.marking constraint).markers).Ensures claim (solver.prepared key constraint) :=
  Journal.ensures_place
    (fun _ chosen => Ensures.before (Ensures.rework (orderly.seats accounted found (.inl chosen))))
    (fun _ => Ensures.before (Ensures.rework (orderly.seats accounted found (.inr rfl))))
    fun _ _ => orderly.ensures_placeArtificially (accounted.workable_prepared found)
      Markers.proper_draw (accounted.over_row found) (orderly.tries accounted found)

omit found in
theorem ensures_activate (key : Symbol) : (Journal.activate key).Ensures claim solver := by
  cases found : solver.constraints.get? key with
  | none =>
      apply Ensures.reading
      rw [found]
      exact Ensures.silent
  | some constraint =>
      have workable := accounted.workable_prepared found
      have prepared := workable.ordered.separate
      rw [prepared_tableau] at prepared
      have seats : (Action.place _ _).Meets (solver.prepared key constraint)
          (Seating (drawn kinds solver constraint) solver.symbols.last _ _ _)
          (fun _ _ => False) InOrder := meets_place_prepared accounted found
      apply Journal.ensures_activate found
        (orderly.plain .pricing (.chargeFresh _ _) trivial accounted.ordered.separate prepared)
        (orderly.ensures_place accounted found) seats
      · rintro after (reworked | _ | _)
        exact orderly.ensures_settle reworked.toWorkable
      · intro reason after seating
        cases seating with
        | unsatisfied => exact orderly.ensures_rollBack accounted found _ workable.reworked
        | unbound _ reworked => exact orderly.ensures_rollBack accounted found _ reworked

/-- Charging a price is a plain change, and the two phases follow. -/
theorem ensures_reprice (strength : Strength α) :
    (Journal.reprice key constraint strength).Ensures claim solver := by
  have placed := accounted.filed.placed key constraint found
  have ordered := accounted.ordered.charge placed.proper_errors
    (strength.weight - constraint.strength.weight)
  have charged := accounted.reworked_adopt ordered (Tableau.reports_with_objective _ _)
  exact Ensures.rework_bind
    (orderly.plain .pricing (.charge _ _) trivial accounted.ordered.separate ordered.separate)
    (orderly.ensures_optimize charged.toWorkable).before

omit found in
/-- Moving constants along markers is a plain change, and repairs follow. -/
theorem ensures_moveTarget (symbol key : Symbol) (previous target : α) :
    (Journal.moveTarget symbol key previous target).Ensures claim solver := by
  have aimed := (accounted.modify_unknown symbol (fun state => { state with target })
    fun _ => ⟨rfl, rfl⟩).toAccounted
  apply Ensures.after_update
  apply Ensures.reading
  dsimp only
  cases found : solver.constraints.get? key with
  | none => exact (orderly.ensures_repair aimed.toWorkable).before
  | some constraint =>
      have shifted := reworked_shift aimed (accounted.filed.placed key constraint found)
        (target - previous)
      have ordered := shifted.ordered
      rw [adopt_tableau] at ordered
      exact Ensures.rework_bind
        (orderly.plain .shifting (.shift _ _) trivial aimed.ordered.separate
          (ordered.separate.alike (Tableau.alike_told _).symm))
        (orderly.ensures_repair shifted.toWorkable).before

end Activation

/-! ## Commands -/

section Unit

variable (unit : Scalar.negligible (0 + -1 : α) = false)

include unit

/-- That everything is accounted for is a warrant for what is orderly. -/
theorem warrant : Warrant (Solver.Accountable (α := α)) claim where
  idle := fun ⟨_, accounted⟩ found => (accounted.filed.placed _ _ found).absent
  recount := fun ⟨kinds, accounted⟩ same => ⟨kinds, (accounted.with_unknowns same).toAccounted⟩
  create := fun strength accountable => accountable.create strength
  write := fun accountable idle => accountable.write idle
  erase := fun ⟨kinds, accounted⟩ _ _ => ⟨kinds, (accounted.thin (.erase _ _)).toAccounted⟩
  refresh := fun ⟨kinds, accounted⟩ => ⟨kinds, accounted.refresh⟩
  activate := fun ⟨_, accounted⟩ idle => ⟨orderly.ensures_activate accounted _,
    (meets_activate unit accounted idle).mono (fun _ _ => Joined.accountable)
      (fun _ _ => Declined.accountable) fun _ _ => trivial⟩
  deactivate := fun key ⟨kinds, accounted⟩ => ⟨orderly.ensures_deactivate accounted key,
    (meets_deactivate accounted).mono (fun _ _ detached => ⟨⟨kinds, detached.toAccounted⟩,
      detached.idle⟩) (fun _ _ => id) fun _ _ => trivial⟩
  reprice := fun ⟨_, accounted⟩ found _ soft soft' =>
    ⟨orderly.ensures_reprice accounted found _,
      (meets_price accounted found (soft'.trans soft.symm)).mono
        (fun _ _ both => both.1.accountable) (fun _ _ => id) fun _ _ => trivial⟩

/-- What is orderly is true of the turns of every command. -/
theorem ensures_command (accountable : solver.Accountable) (asked : Command α) :
    (Journal.command asked).Ensures claim solver := by
  have warrant := orderly.warrant unit
  apply warrant.ensures_command accountable
  · rintro _ emptied ⟨_, accounted⟩
    exact orderly.plain .clearing .clear trivial accounted.ordered.separate
      accounted.ordered.cleared.separate
  · rintro handle target rfl
    have begins := warrant.beginEdit handle Strength.medium solver accountable
    apply Warrant.ensures_suggest accountable begins.1 begins.2
    exact fun ⟨_, accounted⟩ _ _ => orderly.ensures_moveTarget accounted _ _ _ _

end Unit

end Turn.Orderly

end SoftSimplex
