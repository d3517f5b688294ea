import SoftSimplex.Proofs.Solver.Caches
import SoftSimplex.Proofs.Tableau.Waiting

/-!
# Nothing is left to repair

Between two commands no row waits for repair and none is flagged. While a command is at work, and
wherever it pauses, a flagged row waits in the queue. No law of arithmetic is needed: every phase
of an action carries a calm tableau, or one in which flagged rows wait, to another one.
-/

namespace SoftSimplex

variable {α : Type}

namespace Action

variable {ρ τ : Type} {before : Tableau α → Prop} {action : Action α ρ}
  {after : ρ → Tableau α → Prop}

/-- From a tableau that meets the first condition an answer comes with one that meets the second. A
refusal leaves a calm tableau behind, and where the action pauses, flagged rows wait. -/
def Carries (before : Tableau α → Prop) (after : ρ → Tableau α → Prop)
    (action : Action α ρ) : Prop :=
  ∀ solver : Solver α, before solver.tableau → action.Meets solver
    (fun result solver => after result solver.tableau) (fun _ solver => solver.tableau.Calm)
    (fun solver => solver.tableau.Flagged)

/-- The action leaves a calm tableau behind if it finds one. -/
abbrev Calms (action : Action α ρ) : Prop :=
  action.Carries Tableau.Calm fun _ => Tableau.Calm

/-- A condition on the rows and the queue of repairs alone. -/
def Concerns (condition : Tableau α → Prop) : Prop :=
  ∀ tableau other : Tableau α, other.rows = tableau.rows →
    other.agenda.repairs = tableau.agenda.repairs → condition tableau → condition other

theorem concerns_calm : Concerns (Tableau.Calm : Tableau α → Prop) :=
  fun _ _ rows repairs calm => calm.alike rows repairs

theorem concerns_flagged : Concerns (Tableau.Flagged : Tableau α → Prop) :=
  fun _ _ rows repairs flagged => flagged.alike rows repairs

namespace Carries

theorem mono (carries : action.Carries before after) {before' : Tableau α → Prop}
    {after' : ρ → Tableau α → Prop} (stronger : ∀ tableau, before' tableau → before tableau)
    (weaker : ∀ result tableau, after result tableau → after' result tableau) :
    action.Carries before' after' :=
  fun solver holds => (carries solver (stronger _ holds)).weaken fun result _ => weaker result _

theorem bind {following : ρ → Action α τ} {last : τ → Tableau α → Prop}
    (first : action.Carries before after)
    (second : ∀ result, (following result).Carries (after result) last) :
    (action >>= following).Carries before last :=
  fun solver holds => Meets.bind (first solver holds) fun result => second result

theorem map {change : ρ → τ} {condition : Tableau α → Prop}
    (carries : action.Carries before fun _ => condition) :
    (change <$> action).Carries before fun _ => condition :=
  fun solver holds => Meets.map (carries solver holds)

theorem pure {result : ρ} (holds : ∀ tableau, before tableau → after result tableau) :
    Carries before after (Pure.pure result : Action α ρ) :=
  fun _ met => Meets.pure (holds _ met)

theorem read : Carries before (fun _ => before) (Action.read : Action α (Solver α)) :=
  fun _ holds _ => holds

/-- A change that does not concern the tableau. -/
theorem update {change : Solver α → Solver α}
    (spares : ∀ solver, (change solver).tableau = solver.tableau) :
    Carries before (fun _ => before) (Action.update change) := by
  intro solver holds
  apply Meets.update
  rwa [spares]

theorem update_bind {change : Solver α → Solver α} {following : Unit → Action α τ}
    {last : τ → Tableau α → Prop} (rest : (following ()).Carries before last)
    (spares : ∀ solver, (change solver).tableau = solver.tableau) :
    (Action.update change >>= following).Carries before last :=
  (update spares).bind fun _ => rest

/-- A change of the tableau that concerns neither its rows nor its queue of repairs. -/
theorem update_alike {condition : Tableau α → Prop} (concerns : Concerns condition)
    {change : Solver α → Solver α}
    (spares : ∀ solver, (change solver).tableau.rows = solver.tableau.rows ∧
      (change solver).tableau.agenda.repairs = solver.tableau.agenda.repairs) :
    Carries condition (fun _ => condition) (Action.update change) :=
  fun solver holds => Meets.update (concerns _ _ (spares solver).1 (spares solver).2 holds)

theorem rework {change : Tableau α → Tableau α} {reworked : Tableau α → Prop}
    (concerns : Concerns reworked) (leads : ∀ tableau, before tableau → reworked (change tableau)) :
    Carries before (fun _ => reworked) (Action.rework change) := by
  intro solver holds
  apply Meets.update
  rw [Solver.adopt_tableau]
  exact concerns (change solver.tableau) (change solver.tableau).told rfl rfl (leads _ holds)

theorem refuse {reason : Refusal} :
    Carries Tableau.Calm after (Action.refuse reason : Action α ρ) :=
  fun _ calm _ => calm

theorem demand (result : Except Refusal ρ) : (Action.demand result : Action α ρ).Calms := by
  cases result with
  | ok value => exact .pure fun _ => id
  | error reason => exact .refuse

theorem attempt (calms : action.Calms) : (Action.attempt action).Calms := by
  intro solver calm
  apply (Meets.attempt (calms solver calm)).weaken
  intro result _
  cases result <;> exact id

theorem forM {σ : Type} {items : List σ} {round : σ → Action α PUnit}
    (calms : ∀ item, (round item).Calms) : (items.forM round).Calms :=
  fun _ calm => Meets.forM (fun solver => solver.tableau.Calm)
    (fun item _ between => calms item between) calm

end Carries

variable [Scalar α]

/-- A flagged row waits, wherever the primal phase has come to. -/
theorem carries_descend (goal? : Option (LinearForm α)) :
    (descend goal?).Carries Tableau.Flagged fun _ => Tableau.Flagged := by
  intro solver flagged
  have waits : ∀ steps, (solver.adopt
      (solver.tableau.descend steps goal?).state.tableau).tableau.Flagged := by
    intro steps
    rw [Solver.adopt_tableau]
    exact (flagged.descend steps goal?).alike rfl rfl
  exact Meets.descend (fun steps _ _ => waits steps) waits

/-- The dual phase leaves nothing to repair. -/
theorem carries_repair :
    (repair : Action α Unit).Carries Tableau.Flagged fun _ => Tableau.Calm := by
  intro solver flagged
  apply Meets.repair
  · intro steps done
    rw [Solver.adopt_tableau]
    exact (flagged.calm_repair done).alike rfl rfl
  · intro steps
    rw [Solver.adopt_tableau]
    exact (flagged.repair steps).alike rfl rfl

theorem carries_optimize :
    (optimize : Action α Unit).Carries Tableau.Flagged fun _ => Tableau.Calm :=
  (carries_descend none).bind fun _ => carries_repair

theorem calms_refreshIfAutomatic : (refreshIfAutomatic : Action α Unit).Calms := by
  apply Carries.update
  intro solver
  split <;> rfl

/-- The two phases and the refresh that may follow. -/
theorem carries_settle : (do optimize; refreshIfAutomatic : Action α Unit).Carries
    Tableau.Flagged fun _ => Tableau.Calm :=
  carries_optimize.bind fun _ => calms_refreshIfAutomatic

theorem calms_prepare (key : Symbol) (constraint : Constraint α) :
    (prepare key constraint).Calms := by
  refine Carries.read.bind fun before => ?_
  refine Carries.bind (?_ : Action.Carries Tableau.Calm (fun _ => Tableau.Calm) _) ?_
  · apply Carries.update_alike concerns_calm
    intro solver
    have marked : (constraint.expression.terms.foldl (fun solver term => solver.markStale term.1)
        solver).tableau = solver.tableau := by
      rw [← List.foldl_map, (Solver.marked_foldl _ solver).rest]
    dsimp only
    rw [marked]
    exact ⟨rfl, rfl⟩
  · exact fun _ => .pure fun _ => id

/-- Taking markers from a constraint concerns the objective and nothing else of the tableau. -/
theorem carries_strip {condition : Tableau α → Prop} (concerns : Concerns condition)
    (key : Symbol) : (strip key).Carries condition fun _ => condition := by
  refine Carries.read.bind fun before => ?_
  split
  · exact .pure fun _ => id
  · rename_i constraint _
    split
    · refine Carries.bind (?_ : Action.Carries condition (fun _ => condition) _) ?_
      · apply Carries.update_alike concerns
        intro solver
        unfold Tableau.settleObjective
        split <;> exact ⟨rfl, rfl⟩
      · exact fun _ => .pure fun _ => id
    · exact .pure fun _ => id

theorem carries_freeArtificial (artificial : Symbol) :
    (freeArtificial artificial).Carries (α := α) Tableau.Flagged fun _ => Tableau.Flagged := by
  intro solver flagged
  apply Meets.read_bind
  split
  · exact Meets.pure flagged
  · rename_i remaining rest taken
    have dropped := flagged.of_take? taken
    -- What is adopted was worked out before, so it is known to be one of these.
    have adopts : ∀ {other : Tableau α} {result : Bool}, other.Flagged →
        (do Action.rework fun _ => other; return result : Action α Bool).Meets solver
          (fun _ solver => solver.tableau.Flagged) (fun _ solver => solver.tableau.Calm)
          (fun solver => solver.tableau.Flagged) := by
      intro other result waits
      refine Meets.rework_bind (Meets.pure ?_)
      rw [Solver.adopt_tableau]
      exact waits.alike rfl rfl
    split
    · exact adopts dropped
    · split
      · exact adopts (dropped.pivot _ _ _)
      · exact adopts dropped

theorem carries_placeArtificially (form : LinearForm α) :
    (placeArtificially form).Carries Tableau.Flagged fun _ => Tableau.Flagged := by
  refine Carries.read.bind fun before => ?_
  refine .update_bind ?_ fun _ => rfl
  apply (Carries.rework concerns_flagged fun _ flagged => flagged.put _ form).bind
  intro _
  apply (carries_descend (some form)).bind
  rintro ⟨reached, goal?⟩
  apply (carries_freeArtificial _).bind
  intro replaced
  apply (Carries.rework concerns_flagged fun _ flagged => flagged.forget _).bind
  exact fun _ => .update_bind (.pure fun _ => id) fun _ => rfl

/-- What looking for a place leaves behind. Unless the row was tried in vain or has found a place,
nothing waits. -/
def Looked (result : Except Refusal Unit) (tableau : Tableau α) : Prop :=
  tableau.Flagged ∧ ∀ reason, result = .error reason → reason ≠ .unbound → tableau.Calm

theorem carries_place (form : LinearForm α) (markers : Markers) :
    (place form markers).Carries Tableau.Calm Looked := by
  have pivots : ∀ subject : Symbol, (do
      Action.rework fun tableau => tableau.pivot form subject Symbol.null
      return .ok () : Action α (Except Refusal Unit)).Carries Tableau.Calm Looked := by
    intro subject
    apply (Carries.rework concerns_flagged fun _ calm => calm.flagged.pivot form _ _).bind
    exact fun _ => .pure fun _ flagged => ⟨flagged, nofun⟩
  unfold place
  split
  · exact pivots _
  · split
    · split
      · exact pivots _
      · exact .pure fun _ calm => ⟨calm.flagged, fun _ _ _ => calm⟩
    · apply ((carries_placeArtificially form).mono (fun _ => Tableau.Calm.flagged)
        fun _ _ => id).bind
      intro succeeded
      cases succeeded with
      | true => exact .pure fun _ flagged => ⟨flagged, nofun⟩
      | false =>
          refine .pure fun _ flagged => ⟨flagged, fun reason same apart => ?_⟩
          exact absurd (Except.error.inj same).symm apart

theorem carries_rollBack (key : Symbol) (reason : Refusal) (mark : Nat) :
    (rollBack key reason mark : Action α Unit).Carries (Looked (.error reason))
      fun _ => Tableau.Calm := by
  unfold rollBack
  by_cases unbound : reason = .unbound
  · apply ((carries_strip concerns_flagged key).mono (fun _ => And.left) fun _ _ => id).bind
    intro marker?
    rw [if_pos unbound]
    have restores : (do
        Action.rework fun tableau : Tableau α => tableau.truncate mark
        optimize
        update fun solver => { solver with symbols := solver.symbols.restore mark } :
          Action α Unit).Carries Tableau.Flagged fun _ => Tableau.Calm := by
      apply (Carries.rework concerns_flagged fun _ flagged => flagged.truncate mark).bind
      exact fun _ => carries_optimize.bind fun _ => .update fun _ => rfl
    cases marker? with
    | none => simpa using restores
    | some marker =>
        simpa using (Carries.rework concerns_flagged fun _ flagged =>
          flagged.dropMarker marker).bind fun _ => restores
  · apply ((carries_strip concerns_calm key).mono
      (fun _ looked => looked.2 reason rfl unbound) fun _ _ => id).bind
    intro _
    rw [if_neg unbound]
    exact .update fun _ => rfl

theorem calms_activate (key : Symbol) : (activate key : Action α Unit).Calms := by
  refine Carries.read.bind fun before => ?_
  split
  · exact .refuse
  · rename_i constraint _
    apply (calms_prepare key constraint).bind
    rintro ⟨form, markers⟩
    apply (carries_place form markers).bind
    intro result
    cases result with
    | ok _ => exact carries_settle.mono (fun _ => And.left) fun _ _ => id
    | error reason => exact (carries_rollBack key reason _).bind fun _ => .refuse

theorem calms_deactivate (key : Symbol) : (deactivate key : Action α Unit).Calms := by
  apply (carries_strip concerns_calm key).bind
  intro marker?
  cases marker? with
  | none => exact .pure fun _ => id
  | some marker =>
      apply (Carries.rework concerns_flagged fun _ calm => calm.flagged.dropMarker marker).bind
      exact fun _ => carries_settle

omit [Scalar α] in
theorem calms_dropReference (symbol : Symbol) :
    (dropReference symbol : Action α (Option Symbol)).Calms := by
  refine Carries.read.bind fun before => ?_
  split
  · exact .pure fun _ => id
  · split
    · exact .update_bind (.pure fun _ => id) fun _ => rfl
    · exact .update_bind (.pure fun _ => id) fun _ => rfl

/-- However deep removals go, each of them leaves nothing to repair. -/
theorem calms_removeWithin (depth : Nat) (key : Symbol) :
    (removeWithin depth key : Action α Unit).Calms := by
  induction depth generalizing key with
  | zero => exact .pure fun _ => id
  | succ depth inductionHypothesis =>
      apply (calms_deactivate key).bind
      refine fun _ => Carries.read.bind fun before => ?_
      split
      · exact .pure fun _ => id
      · refine .update_bind (Carries.forM fun term => ?_) fun _ => rfl
        apply (calms_dropReference term.1).bind
        intro edit?
        cases edit? with
        | none => exact .pure fun _ => id
        | some edit => exact inductionHypothesis edit

theorem calms_removeConstraint (key : Symbol) : (removeConstraint key : Action α Unit).Calms :=
  Carries.read.bind fun _ => calms_removeWithin _ key

theorem calms_releaseVariable (symbol : Symbol) :
    (releaseVariable symbol : Action α Unit).Calms := by
  apply (calms_dropReference symbol).bind
  intro edit?
  cases edit? with
  | none => exact .pure fun _ => id
  | some edit => exact calms_removeConstraint edit

theorem calms_trackTerm (symbol : Symbol) (was now : LinearForm α) :
    (trackTerm symbol was now).Calms := by
  unfold trackTerm
  split
  · exact .update fun _ => rfl
  · exact calms_releaseVariable symbol
  · exact .pure fun _ => id

/-! ## Building -/

theorem calms_createVariable : (createVariable : Action α VariableHandle).Calms :=
  Carries.read.bind fun _ => .update_bind (.pure fun _ => id) fun _ => rfl

omit [Scalar α] in
theorem calms_shareVariable (handle : VariableHandle) :
    (shareVariable handle : Action α Unit).Calms :=
  Carries.read.bind fun _ => (Carries.demand _).bind fun _ => .update fun _ => rfl

theorem calms_giveUpVariable (handle : VariableHandle) :
    (giveUpVariable handle : Action α Unit).Calms := by
  refine Carries.read.bind fun before => ?_
  split
  · exact calms_releaseVariable _
  · exact .pure fun _ => id

theorem calms_createConstraint (strength : Strength α) :
    (createConstraint strength : Action α ConstraintHandle).Calms :=
  Carries.read.bind fun _ => .update_bind (.pure fun _ => id) fun _ => rfl

theorem calms_addTerm (handle : ConstraintHandle) (inside : VariableHandle) (coefficient : α) :
    (addTerm handle inside coefficient).Calms := by
  refine Carries.read.bind fun _ => (Carries.demand _).bind fun _ => ?_
  refine Carries.read.bind fun _ => (Carries.demand _).bind fun constraint => ?_
  exact .update_bind (calms_trackTerm _ _ _) fun _ => rfl

theorem calms_addConstant (handle : ConstraintHandle) (constant : α) :
    (addConstant handle constant).Calms :=
  Carries.read.bind fun _ => (Carries.demand _).bind fun _ => .update fun _ => rfl

theorem calms_mergeConstraint (handle source : ConstraintHandle) (factor : α) :
    (mergeConstraint handle source factor).Calms := by
  refine Carries.read.bind fun _ => (Carries.demand _).bind fun added => ?_
  refine Carries.read.bind fun _ => (Carries.demand _).bind fun constraint => ?_
  exact .update_bind (Carries.forM fun term => calms_trackTerm _ _ _) fun _ => rfl

theorem calms_setRelation (handle : ConstraintHandle) (relation : Relation) :
    (setRelation handle relation : Action α Unit).Calms := by
  refine Carries.read.bind fun _ => (Carries.demand _).bind fun constraint => ?_
  split
  · exact .refuse
  · exact .update fun _ => rfl

theorem calms_copyConstraint (source : ConstraintHandle) (strength : Strength α) :
    (copyConstraint source strength).Calms := by
  refine Carries.read.bind fun _ => (Carries.demand _).bind fun copied => ?_
  apply (calms_createConstraint _).bind
  intro handle
  apply (calms_mergeConstraint handle source 1).bind
  exact fun _ => .update_bind (.pure fun _ => id) fun _ => rfl

theorem calms_addConstraint (handle : ConstraintHandle) :
    (addConstraint handle : Action α Unit).Calms := by
  refine Carries.read.bind fun _ => (Carries.demand _).bind fun constraint => ?_
  split
  · exact .refuse
  · exact calms_activate _

theorem calms_withdrawConstraint (handle : ConstraintHandle) :
    (withdrawConstraint handle : Action α Unit).Calms := by
  refine Carries.read.bind fun _ => ?_
  split
  · exact calms_deactivate _
  · exact .pure fun _ => id

theorem calms_eraseConstraint (handle : ConstraintHandle) :
    (eraseConstraint handle : Action α Unit).Calms := by
  refine Carries.read.bind fun _ => ?_
  split
  · exact .pure fun _ => id
  · apply (calms_deactivate _).bind
    refine fun _ => Carries.read.bind fun between => ?_
    split
    · exact .pure fun _ => id
    · exact .update_bind (Carries.forM fun term => calms_releaseVariable term.1) fun _ => rfl

theorem calms_discardConstraint (handle : ConstraintHandle) :
    (discardConstraint handle : Action α Unit).Calms := by
  refine Carries.read.bind fun _ => ?_
  split
  · exact calms_removeConstraint _
  · exact .pure fun _ => id

/-- A new price concerns the objective. The two phases follow it. -/
theorem calms_changeStrength (key : Symbol) (strength : Strength α) :
    (changeStrength key strength).Calms := by
  refine Carries.read.bind fun _ => ?_
  split
  · exact .refuse
  · rename_i constraint _
    have assigns : (update fun solver : Solver α =>
        { solver with constraints := solver.constraints.modify key fun state =>
            { state with strength } }).Calms :=
      .update fun _ => rfl
    have charges : (do
        Action.rework fun tableau => tableau.charge constraint.markers.errors
          (strength.weight - constraint.strength.weight)
        optimize
        refreshIfAutomatic : Action α Unit).Calms := by
      apply (Carries.rework concerns_flagged fun _ calm => (calm.alike rfl rfl).flagged).bind
      exact fun _ => carries_settle
    split
    · exact .pure fun _ => id
    · split
      · have restarts := assigns.bind fun _ => calms_activate key
        split
        · exact (calms_deactivate key).bind fun _ => restarts
        · simpa using restarts
      · split
        · simpa [bind_assoc] using charges.bind fun _ => assigns
        · simpa using assigns

theorem calms_setStrength (handle : ConstraintHandle) (strength : Strength α) :
    (setStrength handle strength).Calms :=
  Carries.read.bind fun _ => (Carries.demand _).bind fun _ => calms_changeStrength _ _

theorem calms_beginEdit (handle : VariableHandle) (strength : Strength α) :
    (beginEdit handle strength).Calms := by
  refine Carries.read.bind fun _ => (Carries.demand _).bind fun found => ?_
  split
  · exact calms_changeStrength _ _
  · apply (calms_createConstraint _).bind
    intro hidden
    refine (calms_setRelation hidden .equal).bind fun _ => ?_
    refine (calms_addTerm hidden handle 1).bind fun _ => ?_
    refine (calms_addConstant hidden (-found.value)).bind fun _ => ?_
    apply (Carries.attempt (calms_addConstraint hidden)).bind
    intro result
    cases result with
    | error reason => exact (calms_removeConstraint _).bind fun _ => .refuse
    | ok _ => exact .update fun _ => rfl

theorem calms_moveTarget (symbol key : Symbol) (previous target : α) :
    (moveTarget symbol key previous target).Calms := by
  have settles : (do repair; refreshIfAutomatic : Action α Unit).Carries Tableau.Flagged
      fun _ => Tableau.Calm := carries_repair.bind fun _ => calms_refreshIfAutomatic
  refine .update_bind (Carries.read.bind fun _ => ?_) fun _ => rfl
  split
  · exact settles.mono (fun _ => Tableau.Calm.flagged) fun _ _ => id
  · apply (Carries.rework concerns_flagged fun _ calm => calm.flagged.shift _ _).bind
    exact fun _ => settles

theorem calms_moveIfBegun (symbol : Symbol) (target : α) (begun : Except Refusal Unit) :
    (moveIfBegun symbol target begun).Calms := by
  refine Carries.read.bind fun _ => ?_
  split
  · split
    · exact .pure fun _ => id
    · exact calms_moveTarget _ _ _ _
  · exact .pure fun _ => id

theorem calms_suggest (handle : VariableHandle) (target : α) :
    (suggest handle target).Calms := by
  refine Carries.read.bind fun _ => ?_
  split
  · exact .pure fun _ => id
  · split
    · exact calms_moveIfBegun _ _ _
    · apply (Carries.attempt (calms_beginEdit handle Strength.medium)).bind
      exact fun begun => calms_moveIfBegun _ _ begun

theorem calms_endEdit (handle : VariableHandle) : (endEdit handle : Action α Unit).Calms := by
  refine Carries.read.bind fun _ => ?_
  split
  · exact .pure fun _ => id
  · split
    · exact .pure fun _ => id
    · exact .update_bind (calms_removeConstraint _) fun _ => rfl

theorem calms_refreshAll : (refreshAll : Action α Unit).Calms :=
  .update fun _ => rfl

omit [Scalar α] in
theorem calms_forgetEdits : (forgetEdits : Action α (List Symbol)).Calms :=
  Carries.read.bind fun _ => .update_bind (.pure fun _ => id) fun _ => rfl

/-- Without rows nothing is flagged, and the queue is emptied with them. -/
theorem calms_emptyTableau : (emptyTableau : Action α Unit).Calms := by
  refine fun solver _ => Meets.update ⟨rfl, fun entry member => ?_⟩
  rw [SlotTable.entries_clear] at member
  exact absurd member List.not_mem_nil

theorem calms_reset (dropConstraints : Bool) :
    (reset dropConstraints : Action α Unit).Calms := by
  have ends : (do
      let edits ← forgetEdits
      edits.forM removeConstraint
      refreshAll : Action α Unit).Calms := by
    refine calms_forgetEdits.bind fun edits => ?_
    exact (Carries.forM calms_removeConstraint).bind fun _ => calms_refreshAll
  have partly : (reset false : Action α Unit).Calms := by
    refine Carries.read.bind fun before => ?_
    cases before.autoUpdate with
    | false => exact calms_refreshAll.bind fun _ => ends
    | true => exact ends
  cases dropConstraints with
  | false => exact partly
  | true =>
      rw [reset_true_eq]
      exact partly.bind fun _ => calms_emptyTableau

end Action

/-! ## Commands -/

variable [Scalar α]

theorem Command.calms (command : Command α) : command.action.Calms := by
  have finished : ∀ request : Action α Unit, request.Calms → (action.finish request).Calms :=
    fun _ calms => calms.bind fun _ => .pure fun _ => id
  cases command with
  | createVariable => exact Action.calms_createVariable.map
  | createConstraint strength => exact (Action.calms_createConstraint strength).map
  | copyConstraint source strength => exact (Action.calms_copyConstraint source strength).map
  | shareVariable handle => exact finished _ (Action.calms_shareVariable handle)
  | giveUpVariable handle => exact finished _ (Action.calms_giveUpVariable handle)
  | mergeConstraint handle source factor =>
      exact finished _ (Action.calms_mergeConstraint handle source factor)
  | addTerm handle inside coefficient =>
      exact finished _ (Action.calms_addTerm handle inside coefficient)
  | addConstant handle constant => exact finished _ (Action.calms_addConstant handle constant)
  | setRelation handle relation => exact finished _ (Action.calms_setRelation handle relation)
  | setStrength handle strength => exact finished _ (Action.calms_setStrength handle strength)
  | addConstraint handle => exact finished _ (Action.calms_addConstraint handle)
  | withdrawConstraint handle => exact finished _ (Action.calms_withdrawConstraint handle)
  | eraseConstraint handle => exact finished _ (Action.calms_eraseConstraint handle)
  | discardConstraint handle => exact finished _ (Action.calms_discardConstraint handle)
  | beginEdit handle strength => exact finished _ (Action.calms_beginEdit handle strength)
  | suggest handle target => exact finished _ (Action.calms_suggest handle target)
  | endEdit handle => exact finished _ (Action.calms_endEdit handle)
  | refresh => exact finished _ Action.calms_refreshAll
  | reset dropConstraints => exact finished _ (Action.calms_reset dropConstraints)
  | setAutoUpdate autoUpdate => exact finished _ (Action.Carries.update fun _ => rfl)

/-- Between two commands nothing waits for repair. -/
theorem Course.Arises.calm {course : Course α} (arises : course.Arises Ends) :
    course.solver.tableau.Calm := by
  induction arises with
  | start identity options => exact Tableau.calm_empty
  | step _ ends inductionHypothesis =>
      exact Solver.perform_of_final (Command.calms _ _ inductionHypothesis) ends

namespace Solver

variable {solver : Solver α}

/-- Wherever a command pauses, a flagged row waits. -/
theorem flagged_perform (calm : solver.tableau.Calm) (command : Command α) (steps : Nat) :
    (solver.perform command steps).2.tableau.Flagged := by
  have here := perform_meets (command.calms solver calm) steps
  revert here
  cases (solver.perform command steps).1 with
  | answered reply => exact Tableau.Calm.flagged
  | refused reason => exact Tableau.Calm.flagged
  | paused => exact id

omit [Scalar α] in
/-- Where symbols are in order, a flagged row waits under its own symbol, kind and all. -/
theorem InOrder.mem_repairs (ordered : solver.InOrder) {entry : Symbol × Row α}
    (member : entry ∈ solver.tableau.rows.entries) (queued : entry.2.isQueued = true) :
    entry.1 ∈ solver.tableau.agenda.repairs := by
  obtain ⟨kinds, _, ordered⟩ := ordered
  obtain ⟨symbol, waits, named⟩ := ordered.flagged entry member queued
  have basic := ordered.proper_basic (entry.1, entry.2.form) (List.mem_map_of_mem member)
  rwa [← (ordered.repairs symbol waits).eq_of_id_eq basic named]

end Solver

/-- No row is hidden from repair. Between two commands nothing waits and no row is flagged. However
far a command has come, a flagged row waits under its number, and under its own symbol unless the
arithmetic takes the unit for nothing. When the command comes to an end, answered or refused,
nothing waits any more. -/
theorem flagged_row_waits {course : Course α} (arises : course.Arises Course.Ends)
    (command : Command α) (steps : Nat) :
    let after := (course.solver.perform command steps).2
    (∀ entry ∈ after.tableau.rows.entries, entry.2.isQueued = true →
      (∃ symbol ∈ after.tableau.agenda.repairs, symbol.id = entry.1.id) ∧
        (Scalar.negligible (0 + -1 : α) = false → entry.1 ∈ after.tableau.agenda.repairs)) ∧
    ((course.solver.perform command steps).1.isFinal = true → after.tableau.Calm) ∧
    course.solver.tableau.Calm := by
  have calm := arises.calm
  refine ⟨fun entry member queued => ⟨?_, fun unit => ?_⟩, ?_, calm⟩
  · exact Solver.flagged_perform calm command steps entry member queued
  · exact ((arises.accountable unit).perform unit command steps).1.mem_repairs member queued
  · exact Solver.perform_of_final (command.calms course.solver calm)

/-- A variable between one and ten that is pulled toward five. -/
def Command.holding : List (Command Float) :=
  overreaching ++ [.suggest ⟨1, 0⟩ 5]

/-- It is pulled toward twelve. Before the first pivot the row of its upper bound is flagged. -/
theorem flagged_row_waits_pulled :
    let after := ((afterDouble false Command.holding).solver.perform (.suggest ⟨1, 0⟩ 12) 0).2
    (∃ entry ∈ after.tableau.rows.entries, entry.2.isQueued = true) ∧
      ∀ entry ∈ after.tableau.rows.entries, entry.2.isQueued = true →
        entry.1 ∈ after.tableau.agenda.repairs := by
  have arises : (afterDouble false Command.holding).Arises Course.Ends :=
    arises_afterDouble (by decide +kernel)
  have waits := flagged_row_waits arises (.suggest ⟨1, 0⟩ 12) 0
  exact ⟨by decide +kernel, fun entry member queued =>
    (waits.1 entry member queued).2 Binary64.dependable.lowered_counts⟩

end SoftSimplex
