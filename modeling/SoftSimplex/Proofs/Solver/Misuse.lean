import SoftSimplex.Proofs.Solver.Meaning
import SoftSimplex.Proofs.Solver.Keeping
import SoftSimplex.Proofs.Solver.Tolerance

/-!
# Misuse

A command that is refused because of its handles leaves the solver as it was, and so does a command
without a result whose handle names nothing. Handles are looked up before anything is written. What
is looked up again after that is there, since it has just been created or was not given up. So
whatever is refused later is refused for the sake of the constraint system.
-/

namespace SoftSimplex

variable {α : Type}

namespace Action

variable {ρ τ : Type} {action : Action α ρ} {solver : Solver α}

/-- From no solver is the action refused. -/
def Willing (action : Action α ρ) : Prop :=
  ∀ solver : Solver α, action.Meets solver (fun _ _ => True) (fun _ _ => False) fun _ => True

namespace Willing

/-- The action may come first in another one, whatever is asked of refusals. -/
theorem meets (willing : action.Willing) (solver : Solver α) {refused : Refusal → Solver α → Prop} :
    action.Meets solver (fun _ _ => True) refused fun _ => True :=
  (willing solver).mono (fun _ _ => id) (fun _ _ => False.elim) fun _ => id

theorem bind {following : ρ → Action α τ} (first : action.Willing)
    (second : ∀ result, (following result).Willing) : (action >>= following).Willing :=
  fun solver => Meets.bind (first solver) fun result after _ => second result after

theorem pure (result : ρ) : Willing (Pure.pure result : Action α ρ) :=
  fun _ => Meets.pure trivial

theorem read : Willing (Action.read : Action α (Solver α)) :=
  fun _ _ => trivial

theorem update (change : Solver α → Solver α) : Willing (Action.update change) :=
  fun _ => Meets.update trivial

/-- An attempt swallows the refusal. -/
theorem attempt (action : Action α ρ) : Willing (Action.attempt action) := by
  intro solver
  exact (Meets.attempt (meets_true action solver)).weaken fun _ _ _ => trivial

theorem forM {σ : Type} {items : List σ} {round : σ → Action α PUnit}
    (willing : ∀ item, (round item).Willing) : (items.forM round).Willing :=
  fun _ => Meets.forM (fun _ => True) (fun item _ before _ => willing item before) trivial

end Willing

variable [Scalar α]

theorem willing_descend (goal? : Option (LinearForm α)) : (descend goal?).Willing :=
  fun _ => Meets.descend (fun _ _ _ => trivial) fun _ => trivial

theorem willing_optimize : (optimize : Action α Unit).Willing :=
  (willing_descend none).bind fun _ _ => Meets.repair (fun _ _ => trivial) fun _ => trivial

theorem willing_refreshIfAutomatic : (refreshIfAutomatic : Action α Unit).Willing :=
  .update _

/-- The two phases and the refresh that may follow. -/
theorem willing_settle : (do optimize; refreshIfAutomatic : Action α Unit).Willing :=
  willing_optimize.bind fun _ => willing_refreshIfAutomatic

omit [Scalar α] in
theorem willing_replaceConstraint (handle : ConstraintHandle) (constraint : Constraint α) :
    (replaceConstraint handle constraint).Willing :=
  .update _

theorem willing_prepare (key : Symbol) (constraint : Constraint α) :
    (prepare key constraint).Willing :=
  Willing.read.bind fun _ => (Willing.update _).bind fun _ => .pure _

theorem willing_strip (key : Symbol) : (strip key : Action α (Option Symbol)).Willing := by
  refine Willing.read.bind fun _ => ?_
  split
  · exact .pure _
  · split
    · exact (Willing.update _).bind fun _ => .pure _
    · exact .pure _

theorem willing_rollBack (key : Symbol) (reason : Refusal) (mark : Nat) :
    (rollBack key reason mark : Action α Unit).Willing := by
  unfold rollBack
  apply (willing_strip key).bind
  intro marker?
  have restores : (update fun solver : Solver α =>
      { solver with symbols := solver.symbols.restore mark }).Willing := .update _
  have clears : (do
      rework fun tableau : Tableau α => tableau.truncate mark
      optimize
      update fun solver => { solver with symbols := solver.symbols.restore mark } :
        Action α Unit).Willing :=
    (Willing.update _).bind fun _ => willing_optimize.bind fun _ => restores
  have drops : ∀ marker, (rework fun tableau : Tableau α => tableau.dropMarker marker).Willing :=
    fun _ => .update _
  split
  · cases marker? with
    | none => simpa using clears
    | some marker => simpa using (drops marker).bind fun _ => clears
  · simpa using restores

theorem willing_freeArtificial (artificial : Symbol) :
    (freeArtificial artificial : Action α Bool).Willing := by
  refine Willing.read.bind fun _ => ?_
  split
  · exact .pure _
  · split
    · exact (Willing.update _).bind fun _ => .pure _
    · split
      · exact (Willing.update _).bind fun _ => .pure _
      · exact (Willing.update _).bind fun _ => .pure _

theorem willing_placeArtificially (form : LinearForm α) : (placeArtificially form).Willing := by
  refine Willing.read.bind fun _ => (Willing.update _).bind fun _ => ?_
  refine (Willing.update _).bind fun _ => (willing_descend _).bind fun _ => ?_
  refine (willing_freeArtificial _).bind fun _ => (Willing.update _).bind fun _ => ?_
  exact (Willing.update _).bind fun _ => .pure _

theorem willing_deactivate (key : Symbol) : (deactivate key : Action α Unit).Willing := by
  apply (willing_strip key).bind
  intro marker?
  cases marker? with
  | none => exact .pure _
  | some marker => exact (Willing.update _).bind fun _ => willing_settle

omit [Scalar α] in
theorem willing_dropReference (symbol : Symbol) :
    (dropReference symbol : Action α (Option Symbol)).Willing := by
  refine Willing.read.bind fun _ => ?_
  split
  · exact .pure _
  · split
    · exact (Willing.update _).bind fun _ => .pure _
    · exact (Willing.update _).bind fun _ => .pure _

theorem willing_removeWithin (depth : Nat) (key : Symbol) :
    (removeWithin depth key : Action α Unit).Willing := by
  induction depth generalizing key with
  | zero => exact .pure _
  | succ depth inductionHypothesis =>
      refine (willing_deactivate key).bind fun _ => Willing.read.bind fun _ => ?_
      split
      · exact .pure _
      · refine (Willing.update _).bind fun _ => Willing.forM fun term => ?_
        apply (willing_dropReference term.1).bind
        intro edit?
        cases edit? with
        | none => exact .pure _
        | some edit => exact inductionHypothesis edit

theorem willing_removeConstraint (key : Symbol) :
    (removeConstraint key : Action α Unit).Willing :=
  Willing.read.bind fun _ => willing_removeWithin _ key

theorem willing_releaseVariable (symbol : Symbol) :
    (releaseVariable symbol : Action α Unit).Willing := by
  apply (willing_dropReference symbol).bind
  intro edit?
  cases edit? with
  | none => exact .pure _
  | some edit => exact willing_removeConstraint edit

theorem willing_trackTerm (symbol : Symbol) (was now : LinearForm α) :
    (trackTerm symbol was now).Willing := by
  unfold trackTerm
  split
  · exact .update _
  · exact willing_releaseVariable symbol
  · exact .pure _

theorem willing_moveTarget (symbol key : Symbol) (previous target : α) :
    (moveTarget symbol key previous target).Willing := by
  have settles : (do repair; refreshIfAutomatic : Action α Unit).Willing :=
    Willing.bind (fun _ => Meets.repair (fun _ _ => trivial) fun _ => trivial)
      fun _ => willing_refreshIfAutomatic
  refine (Willing.update _).bind fun _ => Willing.read.bind fun _ => ?_
  split
  · exact settles
  · exact (Willing.update _).bind fun _ => settles

theorem willing_moveIfBegun (symbol : Symbol) (target : α) (begun : Except Refusal Unit) :
    (moveIfBegun symbol target begun).Willing := by
  refine Willing.read.bind fun _ => ?_
  split
  · split
    · exact .pure _
    · exact willing_moveTarget _ _ _ _
  · exact .pure _

theorem willing_createVariable : (createVariable : Action α VariableHandle).Willing :=
  Willing.read.bind fun _ => (Willing.update _).bind fun _ => .pure _

theorem willing_createConstraint (strength : Strength α) :
    (createConstraint strength : Action α ConstraintHandle).Willing :=
  Willing.read.bind fun _ => (Willing.update _).bind fun _ => .pure _

theorem willing_giveUpVariable (handle : VariableHandle) :
    (giveUpVariable handle : Action α Unit).Willing := by
  refine Willing.read.bind fun _ => ?_
  split
  · exact willing_releaseVariable _
  · exact .pure _

theorem willing_withdrawConstraint (handle : ConstraintHandle) :
    (withdrawConstraint handle : Action α Unit).Willing := by
  refine Willing.read.bind fun _ => ?_
  split
  · exact willing_deactivate _
  · exact .pure _

theorem willing_eraseConstraint (handle : ConstraintHandle) :
    (eraseConstraint handle : Action α Unit).Willing := by
  refine Willing.read.bind fun _ => ?_
  split
  · exact .pure _
  · refine (willing_deactivate _).bind fun _ => Willing.read.bind fun _ => ?_
    split
    · exact .pure _
    · refine (willing_replaceConstraint _ _).bind fun _ => Willing.forM fun term => ?_
      exact willing_releaseVariable term.1

theorem willing_discardConstraint (handle : ConstraintHandle) :
    (discardConstraint handle : Action α Unit).Willing := by
  refine Willing.read.bind fun _ => ?_
  split
  · exact willing_removeConstraint _
  · exact .pure _

theorem willing_suggest (handle : VariableHandle) (target : α) :
    (suggest handle target).Willing := by
  refine Willing.read.bind fun _ => ?_
  split
  · exact .pure _
  · split
    · exact willing_moveIfBegun _ _ _
    · exact (Willing.attempt _).bind fun begun => willing_moveIfBegun _ _ begun

theorem willing_endEdit (handle : VariableHandle) : (endEdit handle : Action α Unit).Willing := by
  refine Willing.read.bind fun _ => ?_
  split
  · exact .pure _
  · split
    · exact .pure _
    · exact (Willing.update _).bind fun _ => willing_removeConstraint _

omit [Scalar α] in
theorem willing_forgetEdits : (forgetEdits : Action α (List Symbol)).Willing :=
  Willing.read.bind fun _ => (Willing.update _).bind fun _ => .pure _

theorem willing_reset (dropConstraints : Bool) :
    (reset dropConstraints : Action α Unit).Willing := by
  have refreshes : (refreshAll : Action α Unit).Willing := .update _
  have ends : (do
      let edits ← forgetEdits
      edits.forM removeConstraint
      refreshAll : Action α Unit).Willing := by
    refine willing_forgetEdits.bind fun edits => ?_
    exact (Willing.forM willing_removeConstraint).bind fun _ => refreshes
  have partly : (reset false : Action α Unit).Willing := by
    refine Willing.read.bind fun before => ?_
    cases before.autoUpdate with
    | false => exact refreshes.bind fun _ => ends
    | true => exact ends
  cases dropConstraints with
  | false => exact partly
  | true =>
      rw [reset_true_eq]
      exact partly.bind fun _ => .update _

/-! ## Refusals that change nothing -/

/-- A refusal that counts as a failure leaves the solver as it was. -/
def Harmless (action : Action α ρ) : Prop :=
  ∀ solver : Solver α, action.Meets solver (fun _ _ => True)
    (fun reason after => reason.status = .failed → after = solver) fun _ => True

omit [Scalar α] in
theorem Willing.harmless (willing : action.Willing) : action.Harmless :=
  fun solver => willing.meets solver

omit [Scalar α] in
theorem Harmless.map {change : ρ → τ} (harmless : action.Harmless) : (change <$> action).Harmless :=
  fun solver => Meets.map (harmless solver)

omit [Scalar α] in
theorem Harmless.before {following : ρ → Action α τ} (harmless : action.Harmless)
    (willing : ∀ result, (following result).Willing) : (action >>= following).Harmless :=
  fun solver => Meets.bind (harmless solver) fun result after _ => (willing result).meets after

omit [Scalar α] in
/-- Looking something up changes nothing. -/
theorem Harmless.of_demand {sought : Solver α → Except Refusal τ} {following : τ → Action α ρ}
    (harmless : ∀ result, (following result).Harmless) :
    (do let result ← demand (sought (← Action.read)); following result).Harmless := by
  intro solver
  refine Meets.read_bind (Meets.demand_bind ?_ fun _ _ _ => rfl)
  exact fun result _ => harmless result solver

omit [Scalar α] in
theorem harmless_refuse (reason : Refusal) : Harmless (refuse reason : Action α ρ) :=
  fun _ => Meets.refuse fun _ => rfl

omit [Scalar α] in
theorem harmless_shareVariable (handle : VariableHandle) :
    (shareVariable handle : Action α Unit).Harmless :=
  .of_demand fun _ => (Willing.update _).harmless

theorem harmless_addTerm (handle : ConstraintHandle) (inside : VariableHandle) (coefficient : α) :
    (addTerm handle inside coefficient).Harmless := by
  refine .of_demand fun _ => .of_demand fun constraint => Willing.harmless ?_
  exact (willing_replaceConstraint _ _).bind fun _ => willing_trackTerm _ _ _

theorem harmless_addConstant (handle : ConstraintHandle) (constant : α) :
    (addConstant handle constant).Harmless :=
  .of_demand fun _ => (willing_replaceConstraint _ _).harmless

theorem harmless_mergeConstraint (handle source : ConstraintHandle) (factor : α) :
    (mergeConstraint handle source factor).Harmless := by
  refine .of_demand fun added => .of_demand fun constraint => Willing.harmless ?_
  exact (willing_replaceConstraint _ _).bind fun _ => Willing.forM fun _ => willing_trackTerm _ _ _

theorem harmless_setRelation (handle : ConstraintHandle) (relation : Relation) :
    (setRelation handle relation : Action α Unit).Harmless := by
  refine .of_demand fun constraint => ?_
  split
  · exact harmless_refuse _
  · exact (willing_replaceConstraint _ _).harmless

/-- The copy has just been created. It is there, and nothing is written in it yet, so that the
source can be merged into it. -/
theorem harmless_copyConstraint (source : ConstraintHandle) (strength : Strength α) :
    (copyConstraint source strength).Harmless := by
  intro solver
  refine Meets.read_bind (Meets.demand_bind ?_ fun _ _ _ => rfl)
  intro copied is_copied
  apply Meets.bind (drafts_createConstraint _)
  rintro _ between ⟨rfl, drafted⟩
  have there : ∃ added, between.findConstraint source = .ok added := by
    obtain ⟨owned, found⟩ := Solver.of_findConstraint is_copied
    unfold Solver.findConstraint
    rw [drafted.identity, if_pos owned, drafted.constraints, found]
    by_cases last : source.key.id = solver.lastConstraint + 1
    · exact ⟨_, by rw [if_pos last]⟩
    · exact ⟨copied, by rw [if_neg last]⟩
  obtain ⟨added, is_added⟩ := there
  have merges : (mergeConstraint ⟨solver.lastConstraint + 1, solver.identity⟩ source 1).Meets
      between (fun _ _ => True)
        (fun reason after => reason.status = .failed → after = solver) fun _ => True := by
    refine Meets.read_bind (Meets.granted_bind is_added ?_)
    refine Meets.read_bind (Meets.granted_bind (drafted.findInactive rfl) ?_)
    apply Willing.meets
    refine (willing_replaceConstraint _ _).bind fun _ => Willing.forM fun _ => ?_
    exact willing_trackTerm _ _ _
  apply Meets.bind merges
  exact fun _ after _ => ((Willing.update _).bind fun _ => Willing.pure _).meets after

/-- A place that is not found is refused for the sake of the constraint system. -/
theorem meets_place_refusals (form : LinearForm α) (markers : Markers) (solver : Solver α) :
    (place form markers).Meets solver
      (fun result _ => ∀ reason, result = .error reason → reason.status ≠ .failed)
      (fun _ _ => False) fun _ => True := by
  have placed : ∀ subject : Symbol, (do
      rework fun tableau => tableau.pivot form subject Symbol.null
      return .ok () : Action α (Except Refusal Unit)).Meets solver
        (fun result _ => ∀ reason, result = .error reason → reason.status ≠ .failed)
        (fun _ _ => False) fun _ => True :=
    fun subject => Meets.rework_bind (Meets.pure nofun)
  have stuck : ∀ {reason : Refusal}, reason.status ≠ .failed → ∀ other,
      (Except.error reason : Except Refusal Unit) = .error other → other.status ≠ .failed :=
    fun counts _ same => Except.error.inj same ▸ counts
  unfold place
  split
  · exact placed _
  · split
    · split
      · exact placed _
      · exact Meets.pure (stuck (by decide))
    · apply Meets.bind ((willing_placeArtificially form).meets solver)
      intro succeeded after _
      cases succeeded with
      | true => exact Meets.pure nofun
      | false => exact Meets.pure (stuck (by decide))

/-- A registered constraint is refused for the sake of the constraint system alone. -/
theorem meets_activate_refusals {key : Symbol} {constraint : Constraint α}
    (found : solver.constraints.get? key = some constraint) :
    (activate key).Meets solver (fun _ _ => True) (fun reason _ => reason.status ≠ .failed)
      fun _ => True := by
  apply Meets.read_bind
  simp only [found]
  apply Meets.bind ((willing_prepare key constraint).meets solver)
  rintro ⟨form, markers⟩ prepared _
  apply Meets.bind ((meets_place_refusals form markers prepared).mono (fun _ _ => id)
    (fun _ _ => False.elim) fun _ => id)
  intro result placed counts
  cases result with
  | ok _ => exact willing_settle.meets placed
  | error reason =>
      apply Meets.bind ((willing_rollBack key reason _).meets placed)
      exact fun _ _ _ => Meets.refuse (counts reason rfl)

/-- Activation is not refused as a failure, so it may leave anything behind. -/
theorem meets_activate_harmless {key : Symbol} {constraint : Constraint α}
    (found : solver.constraints.get? key = some constraint) (before : Solver α) :
    (activate key).Meets solver (fun _ _ => True)
      (fun reason after => reason.status = .failed → after = before) fun _ => True :=
  (meets_activate_refusals found).mono (fun _ _ => id)
    (fun _ _ counts failed => absurd failed counts) fun _ => id

theorem harmless_addConstraint (handle : ConstraintHandle) :
    (addConstraint handle : Action α Unit).Harmless := by
  intro solver
  refine Meets.read_bind (Meets.demand_bind ?_ fun _ _ _ => rfl)
  intro constraint is_constraint
  split
  · exact Meets.refuse fun _ => rfl
  · exact meets_activate_harmless (Solver.of_findConstraint is_constraint).2 solver

/-- The two phases and the refresh leave the constraints alone. -/
theorem meets_settle_constraints (solver : Solver α) {refused : Refusal → Solver α → Prop} :
    (do optimize; refreshIfAutomatic : Action α Unit).Meets solver
      (fun _ after => after.constraints = solver.constraints) refused fun _ => True := by
  have descends : (descend none : Action α _).Meets solver
      (fun _ after => after.constraints = solver.constraints) refused fun _ => True :=
    Meets.descend (fun _ _ _ => Solver.adopt_constraints _ _) fun _ => trivial
  apply Meets.bind (Meets.bind descends _) _
  · exact fun _ after => after.constraints = solver.constraints
  · intro _ lowered same
    refine Meets.repair (fun _ _ => ?_) fun _ => trivial
    rw [Solver.adopt_constraints, same]
  · intro _ repaired same
    apply Meets.update
    split
    · exact same
    · exact same

/-- A constraint that has been taken out is still registered. -/
theorem meets_deactivate_registered {key : Symbol}
    (registered : ∃ constraint, solver.constraints.get? key = some constraint)
    {refused : Refusal → Solver α → Prop} :
    (deactivate key).Meets solver
      (fun _ after => ∃ constraint, after.constraints.get? key = some constraint) refused
      fun _ => True := by
  obtain ⟨constraint, found⟩ := registered
  have strips : (strip key).Meets solver
      (fun _ after => ∃ constraint, after.constraints.get? key = some constraint) refused
      fun _ => True := by
    apply Meets.read_bind
    simp only [found]
    split
    · refine Meets.update_bind (Meets.pure ⟨{ constraint with markers := Markers.absent }, ?_⟩)
      rw [Catalog.get?_modify, if_pos rfl, found]
      rfl
    · exact Meets.pure ⟨constraint, found⟩
  apply Meets.bind strips
  intro marker? stripped registered
  cases marker? with
  | none => exact Meets.pure registered
  | some marker =>
      apply Meets.rework_bind
      apply (meets_settle_constraints _).weaken
      intro _ after same
      rwa [same, Solver.adopt_constraints]

/-- A constraint whose strength changes is registered before it is let take part afresh. -/
theorem harmless_changeStrength (key : Symbol) (strength : Strength α) :
    (changeStrength key strength).Harmless := by
  intro solver
  apply Meets.read_bind
  cases found : solver.constraints.get? key with
  | none => exact Meets.refuse fun _ => rfl
  | some constraint =>
      have restarts : ∀ before : Solver α,
          (∃ constraint, before.constraints.get? key = some constraint) →
          (do
            update fun solver => { solver with
              constraints := solver.constraints.modify key fun state => { state with strength } }
            activate key : Action α Unit).Meets before (fun _ _ => True)
              (fun reason after => reason.status = .failed → after = solver) fun _ => True := by
        rintro before ⟨registered, there⟩
        have assigned : (before.constraints.modify key fun state =>
            { state with strength }).get? key = some { registered with strength } := by
          rw [Catalog.get?_modify, if_pos rfl, there]
          rfl
        exact Meets.update_bind (meets_activate_harmless assigned solver)
      dsimp only
      split
      · exact Meets.pure trivial
      · split
        · split
          · apply Meets.bind (meets_deactivate_registered ⟨constraint, found⟩)
            exact fun _ => restarts
          · simpa using restarts solver ⟨constraint, found⟩
        · have assigns : (update fun solver : Solver α => { solver with
              constraints := solver.constraints.modify key fun state =>
                { state with strength } }).Willing := .update _
          have charges : (do
              rework fun tableau => tableau.charge constraint.markers.errors
                (strength.weight - constraint.strength.weight)
              optimize
              refreshIfAutomatic : Action α Unit).Willing :=
            (Willing.update _).bind fun _ => willing_settle
          split
          · simpa [bind_assoc] using (charges.bind fun _ => assigns).meets solver
          · simpa using assigns.meets solver

theorem harmless_setStrength (handle : ConstraintHandle) (strength : Strength α) :
    (setStrength handle strength).Harmless :=
  .of_demand fun _ => harmless_changeStrength _ _

/-- A hidden constraint that has been drafted is there and inactive, so that nothing but the
constraint system can speak against it. -/
theorem harmless_beginEdit (handle : VariableHandle) (strength : Strength α) :
    (beginEdit handle strength).Harmless := by
  rw [beginEdit_eq]
  intro solver
  refine Meets.read_bind (Meets.demand_bind ?_ fun _ _ _ => rfl)
  intro state found
  cases state.edit with
  | some key => exact harmless_changeStrength key _ solver
  | none =>
      apply Meets.bind (drafts_pull found _ _)
      rintro _ drafted ⟨rfl, draft⟩
      have adds : (addConstraint ⟨solver.lastConstraint + 1, solver.identity⟩).Meets drafted
          (fun _ _ => True) (fun reason _ => reason.status ≠ .failed) fun _ => True :=
        Meets.read_bind (Meets.granted_bind draft.findConstraint
          (meets_activate_refusals draft.found))
      apply Meets.bind (Meets.attempt adds)
      intro result between
      cases result with
      | error reason =>
          intro counts
          apply Meets.bind ((willing_removeConstraint _).meets between)
          exact fun _ _ _ => Meets.refuse fun failed => absurd failed counts
      | ok _ => exact fun _ => Meets.update trivial

end Action

variable [Scalar α]

theorem Command.harmless (command : Command α) : command.action.Harmless := by
  have finished : ∀ request : Action α Unit, request.Harmless → (action.finish request).Harmless :=
    fun _ harmless => harmless.before fun _ => Action.Willing.pure _
  have accepted : ∀ request : Action α Unit, request.Willing → (action.finish request).Harmless :=
    fun _ willing => finished _ willing.harmless
  cases command with
  | createVariable => exact Action.willing_createVariable.harmless.map
  | createConstraint strength => exact (Action.willing_createConstraint strength).harmless.map
  | copyConstraint source strength => exact (Action.harmless_copyConstraint source strength).map
  | shareVariable handle => exact finished _ (Action.harmless_shareVariable handle)
  | giveUpVariable handle => exact accepted _ (Action.willing_giveUpVariable handle)
  | mergeConstraint handle source factor =>
      exact finished _ (Action.harmless_mergeConstraint handle source factor)
  | addTerm handle inside coefficient =>
      exact finished _ (Action.harmless_addTerm handle inside coefficient)
  | addConstant handle constant => exact finished _ (Action.harmless_addConstant handle constant)
  | setRelation handle relation => exact finished _ (Action.harmless_setRelation handle relation)
  | setStrength handle strength => exact finished _ (Action.harmless_setStrength handle strength)
  | addConstraint handle => exact finished _ (Action.harmless_addConstraint handle)
  | withdrawConstraint handle => exact accepted _ (Action.willing_withdrawConstraint handle)
  | eraseConstraint handle => exact accepted _ (Action.willing_eraseConstraint handle)
  | discardConstraint handle => exact accepted _ (Action.willing_discardConstraint handle)
  | beginEdit handle strength => exact finished _ (Action.harmless_beginEdit handle strength)
  | suggest handle target => exact accepted _ (Action.willing_suggest handle target)
  | endEdit handle => exact accepted _ (Action.willing_endEdit handle)
  | refresh => exact accepted _ (Action.Willing.update _)
  | reset dropConstraints => exact accepted _ (Action.willing_reset dropConstraints)
  | setAutoUpdate autoUpdate => exact accepted _ (Action.Willing.update _)

/-! ## Handles that name nothing -/

namespace Action

variable {ρ τ : Type} {action : Action α ρ} {solver : Solver α}

/-- The action gives a result and changes nothing, whatever its allotment. -/
def Answers (action : Action α ρ) (solver : Solver α) (result : ρ) : Prop :=
  ∀ steps, action ⟨solver, steps⟩ = .ok result ⟨solver, steps⟩

namespace Answers

omit [Scalar α] in
theorem pure (result : ρ) : Answers (Pure.pure result : Action α ρ) solver result :=
  fun _ => rfl

omit [Scalar α] in
theorem read_bind {following : Solver α → Action α ρ} {result : ρ}
    (answers : (following solver).Answers solver result) :
    (read >>= following).Answers solver result :=
  answers

omit [Scalar α] in
theorem bind {following : ρ → Action α τ} {result : ρ} {last : τ}
    (first : action.Answers solver result) (second : (following result).Answers solver last) :
    (action >>= following).Answers solver last := by
  intro steps
  simp only [Bind.bind, EStateM.bind, first steps]
  exact second steps

end Answers

/-- A variable that is not registered has no references to be dropped. -/
theorem answers_giveUpVariable {handle : VariableHandle} {reason : Refusal}
    (missing : solver.findVariable handle = .error reason) :
    (giveUpVariable handle).Answers solver () := by
  apply Answers.read_bind
  split
  · rename_i owned
    unfold Solver.findVariable at missing
    rw [if_pos owned] at missing
    refine Answers.bind (?_ : Action.Answers _ solver (none : Option Symbol)) (.pure ())
    apply Answers.read_bind
    cases found : solver.unknowns.get? handle.symbol with
    | none => exact .pure none
    | some state =>
        rw [found] at missing
        exact absurd missing (by simp)
  · exact .pure ()

/-- A constraint that takes no part has no markers to be taken. -/
theorem answers_deactivate {key : Symbol} {constraint : Constraint α}
    (found : solver.constraints.get? key = some constraint)
    (inactive : constraint.isActive = false) : (deactivate key).Answers solver () := by
  refine Answers.bind (?_ : Action.Answers _ solver none) (.pure ())
  apply Answers.read_bind
  simp only [found, inactive, Bool.false_eq_true, if_false]
  exact .pure none

end Action

/-- The command is one without a result, and its handle names nothing, be it stale or foreign. A
constraint that takes no part need not be withdrawn either. -/
def Command.Misses (solver : Solver α) : Command α → Prop
  | giveUpVariable handle | suggest handle _ | endEdit handle =>
      ∃ reason, solver.findVariable handle = .error reason
  | eraseConstraint handle | discardConstraint handle =>
      ∃ reason, solver.findConstraint handle = .error reason
  | withdrawConstraint handle => solver.isActive handle = false
  | _ => False

namespace Solver

variable {solver : Solver α} {command : Command α}

/-- A refusal that counts as a failure comes with the solver as it was. -/
theorem perform_of_failed {steps : Nat} {reason : Refusal}
    (refused : (solver.perform command steps).1 = .refused reason)
    (failed : reason.status = .failed) : (solver.perform command steps).2 = solver := by
  have here := perform_meets (command.harmless solver) steps
  rw [refused] at here
  exact here failed

theorem perform_of_answers {request : Action α Unit}
    (asks : command.action = Command.action.finish request) (answers : request.Answers solver ())
    (steps : Nat) : solver.perform command steps = (.answered .done, solver) := by
  unfold perform
  rw [asks, Command.action.finish, answers.bind (.pure Reply.done) steps]

/-- A request that is ignored by what it reads first. -/
theorem perform_of_ignored {following : Solver α → Action α Unit}
    (asks : command.action = Command.action.finish (Action.read >>= following))
    (ignored : following solver = pure ()) (steps : Nat) :
    solver.perform command steps = (.answered .done, solver) := by
  refine perform_of_answers asks (.read_bind ?_) steps
  rw [ignored]
  exact .pure ()

/-- A command whose handle names nothing is answered and changes nothing. -/
theorem perform_of_misses (misses : command.Misses solver) (steps : Nat) :
    solver.perform command steps = (.answered .done, solver) := by
  cases command with
  | giveUpVariable handle =>
      obtain ⟨reason, missing⟩ := misses
      exact perform_of_answers rfl (Action.answers_giveUpVariable missing) steps
  | suggest handle target =>
      obtain ⟨reason, missing⟩ := misses
      exact perform_of_ignored rfl (by simp only [missing]) steps
  | endEdit handle =>
      obtain ⟨reason, missing⟩ := misses
      exact perform_of_ignored rfl (by simp only [missing]) steps
  | eraseConstraint handle =>
      obtain ⟨reason, missing⟩ := misses
      exact perform_of_ignored rfl (by simp only [missing]) steps
  | discardConstraint handle =>
      obtain ⟨reason, missing⟩ := misses
      exact perform_of_ignored rfl (by simp only [missing]) steps
  | withdrawConstraint handle =>
      suffices answers : (Action.withdrawConstraint handle).Answers solver () from
        perform_of_answers rfl answers steps
      apply Action.Answers.read_bind
      cases found : solver.findConstraint handle with
      | error reason => exact .pure ()
      | ok constraint =>
          apply Action.answers_deactivate (of_findConstraint found).2
          simpa only [Command.Misses, isActive, found] using misses
  | _ => exact misses.elim

end Solver

/-- Misuse is harmless. A command that is refused with a reason that counts as a failure leaves the
whole solver as it was, and so does one without a result whose handle is stale or foreign, or that
withdraws a constraint which takes no part. -/
theorem misuse_harmless (solver : Solver α) (command : Command α) (steps : Nat) :
    (∀ reason, (solver.perform command steps).1 = .refused reason → reason.status = .failed →
      (solver.perform command steps).2 = solver) ∧
    (command.Misses solver →
      solver.perform command steps = (.answered .done, solver)) :=
  ⟨fun _ refused failed => Solver.perform_of_failed refused failed,
    fun misses => Solver.perform_of_misses misses steps⟩

/-- A live constraint cannot be added again, and a handle of another solver cannot be used to begin
an edit or to move a target. -/
theorem misuse_harmless_mingled :
    (mingled.solver.perform (.addConstraint ⟨2, 0⟩) 20).2 = mingled.solver ∧
      (mingled.solver.perform (.beginEdit ⟨1, 7⟩ .strong) 20).2 = mingled.solver ∧
      mingled.solver.perform (.suggest ⟨1, 7⟩ 3) 20 = (.answered .done, mingled.solver) :=
  ⟨(misuse_harmless mingled.solver (.addConstraint ⟨2, 0⟩) 20).1 .activeConstraint
      (by decide +kernel) rfl,
    (misuse_harmless mingled.solver (.beginEdit ⟨1, 7⟩ .strong) 20).1 .foreignHandle
      (by decide +kernel) rfl,
    (misuse_harmless mingled.solver (.suggest ⟨1, 7⟩ 3) 20).2
      ⟨.foreignHandle, if_neg (by decide +kernel)⟩⟩

end SoftSimplex
