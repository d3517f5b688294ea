import SoftSimplex.Proofs.Solver.Accounts
import SoftSimplex.Proofs.Solver.History
import SoftSimplex.Proofs.Solver.Drafting

/-!
# Commands keep accounts

An action keeps accounts if from every solver in which everything is accounted for it leads to such
a solver, whether it answers or is refused. Every command does, provided that the unit is not
negligible. A command that pauses leaves at least a tableau in order.

Nearly all actions do more. They know the caches as well as before, and if caches are refreshed
without being asked for, they leave them up to date, unless a refusal comes after pivoting. Only
emptying the tableau moves values without telling.
-/

namespace SoftSimplex

variable {α : Type} [Scalar α] {kinds : Nat → Symbol.Kind} {solver : Solver α}

namespace Solver

/-- Everything is accounted for, and caches that are refreshed without being asked for are up to
date if they were before. -/
structure Kept (solver after : Solver α) : Prop extends Follows solver after where
  accountable : after.Accountable

/-- After a refusal everything is accounted for, and the caches may be out of date only if it came
after pivoting. -/
structure Spared (solver : Solver α) (reason : Refusal) (after : Solver α) : Prop
    extends Recoils solver reason after where
  accountable : after.Accountable

variable {between after : Solver α} {reason : Refusal} {key : Symbol}

theorem Accountable.kept (accountable : solver.Accountable) : Kept solver solver :=
  ⟨.refl solver, accountable⟩

theorem Accountable.spared (accountable : solver.Accountable) : Spared solver reason solver :=
  ⟨(Follows.refl solver).recoils reason, accountable⟩

theorem Kept.trans (kept : Kept solver between) (kept' : Kept between after) : Kept solver after :=
  ⟨kept.toFollows.trans kept'.toFollows, kept'.accountable⟩

theorem Kept.spared (kept : Kept solver between) (spared : Spared between reason after) :
    Spared solver reason after :=
  ⟨kept.toFollows.then_recoils spared.toRecoils, spared.accountable⟩

theorem Spared.then_kept (spared : Spared solver reason between) (kept : Kept between after) :
    Spared solver reason after :=
  ⟨spared.toRecoils.then_follows kept.toFollows, kept.accountable⟩

theorem Thinned.kept (thinned : Thinned kinds solver after) : Kept solver after :=
  ⟨thinned.toFollows, kinds, thinned.toAccounted⟩

theorem Joined.kept (joined : Joined key solver after) : Kept solver after :=
  ⟨joined.toRenews.follows, joined.accountable⟩

theorem Joined.recast (joined : Joined key solver after) : Recast key solver after :=
  joined.toRemarked.recast joined.later

/-- An edit has begun: the last constraint created is a live pull and edits the variable, which has
gained a reference. -/
structure Begun (symbol : Symbol) (pull : Constraint α) (target : α) (solver after : Solver α) :
    Prop where
  identity : after.identity = solver.identity
  lastConstraint : after.lastConstraint = solver.lastConstraint + 1
  hidden : ∃ constraint, after.constraints.get? ⟨solver.lastConstraint + 1, .external⟩ =
    some constraint ∧ constraint.unmarked = pull ∧ constraint.isActive = true
  elsewhere : ∀ sought : Symbol, sought.id ≠ solver.lastConstraint + 1 →
    after.constraints.get? sought = solver.constraints.get? sought
  outline : ∀ sought, (after.unknowns.get? sought).map Variable.outline =
    if sought.id = symbol.id then (solver.unknowns.get? sought).map fun state =>
      (state.references + 1, some ⟨solver.lastConstraint + 1, .external⟩, target)
    else (solver.unknowns.get? sought).map Variable.outline
  later : solver.symbols.last ≤ after.symbols.last

/-- An edit begins when its draft has been activated and the variable is told of it. -/
theorem Drafted.begun {symbol : Symbol} {pull : Constraint α}
    (draft : Drafted (solver.unknowns.modify symbol Variable.retained) pull solver between)
    (joined : Joined ⟨solver.lastConstraint + 1, .external⟩ between after) (target : α) :
    Begun symbol pull.unmarked target solver { after with
      unknowns := after.unknowns.modify symbol fun now =>
        { now with edit := some ⟨solver.lastConstraint + 1, .external⟩, target } } := by
  constructor
  · rw [← draft.identity]
    exact joined.identity
  · rw [← draft.lastConstraint]
    exact joined.lastConstraint
  · have written := joined.written
    rw [draft.found] at written
    obtain ⟨constraint, there, same⟩ := Option.map_eq_some_iff.mp written
    exact ⟨constraint, there, same, joined.active constraint there⟩
  · intro sought apart
    exact (joined.elsewhere sought apart).trans
      ((draft.constraints sought).trans (if_neg apart))
  · intro sought
    have same := joined.outline sought
    rw [draft.unknowns_eq, Catalog.get?_modify] at same
    dsimp only
    rw [Catalog.get?_modify]
    split
    · rename_i named
      rw [if_pos named] at same
      have aimed := congrArg (Option.map fun outline : Nat × Option Symbol × α =>
        (outline.1, some (⟨solver.lastConstraint + 1, .external⟩ : Symbol), target)) same
      rw [Option.map_map, Option.map_map, Option.map_map] at aimed
      rw [Option.map_map]
      exact aimed
    · rename_i apart
      rwa [if_neg apart] at same
  · rw [← draft.symbols]
    exact joined.later

theorem Declined.spared (declined : Declined key reason solver after) :
    Spared solver reason after :=
  ⟨declined.toRecoils, declined.accountable⟩

theorem Declined.recast (declined : Declined key reason solver after) :
    Recast key solver after :=
  declined.toRemarked.recast (by rw [declined.symbols])

theorem Detached.recast (detached : Detached kinds key solver after) : Recast key solver after :=
  detached.toRemarked.recast (by rw [detached.symbols])

end Solver

namespace Action

open Solver

theorem Rewritten.kept {key : Symbol} {after : Solver α}
    (rewritten : Rewritten kinds key solver after) : Kept solver after :=
  ⟨rewritten.toFollows, kinds, rewritten.toAccounted⟩

variable {ρ τ : Type} {action : Action α ρ} {handle : ConstraintHandle}

/-- The action leaves everything accounted for, and the tableau in order where it pauses. -/
def Accounts (action : Action α ρ) : Prop :=
  ∀ solver : Solver α, solver.Accountable → action.Meets solver
    (fun _ after => after.Accountable) (fun _ after => after.Accountable) InOrder

/-- The action minds the caches as well. -/
def Keeps (action : Action α ρ) : Prop :=
  ∀ solver : Solver α, solver.Accountable → action.Meets solver
    (fun _ after => Kept solver after) (fun reason after => Spared solver reason after) InOrder

namespace Accounts

theorem bind {following : ρ → Action α τ} (first : action.Accounts)
    (second : ∀ result, (following result).Accounts) : (action >>= following).Accounts :=
  fun solver accountable => Meets.bind (first solver accountable) second

theorem pure (result : ρ) : Accounts (Pure.pure result : Action α ρ) :=
  fun _ accountable => Meets.pure accountable

end Accounts

namespace Keeps

theorem accounts (keeps : action.Keeps) : action.Accounts :=
  fun solver accountable => (keeps solver accountable).mono (fun _ _ => Kept.accountable)
    (fun _ _ => Spared.accountable) fun _ => id

/-- Going on from a solver that has been kept. -/
theorem continue_from {between : Solver α} (keeps : action.Keeps) (kept : Kept solver between) :
    action.Meets between (fun _ after => Kept solver after)
      (fun reason after => Spared solver reason after) InOrder :=
  (keeps between kept.accountable).mono (fun _ _ => kept.trans) (fun _ _ => kept.spared)
    fun _ => id

theorem bind {following : ρ → Action α τ} (first : action.Keeps)
    (second : ∀ result, (following result).Keeps) : (action >>= following).Keeps :=
  fun solver accountable => Meets.bind (first solver accountable)
    fun result _ => (second result).continue_from

theorem map {change : ρ → τ} (keeps : action.Keeps) : (change <$> action).Keeps :=
  fun solver accountable => Meets.map (keeps solver accountable)

theorem pure (result : ρ) : Keeps (Pure.pure result : Action α ρ) :=
  fun _ accountable => Meets.pure accountable.kept

theorem forM {σ : Type} {items : List σ} {round : σ → Action α PUnit}
    (keeps : ∀ item ∈ items, (round item).Keeps) : (items.forM round).Keeps := by
  intro solver accountable
  apply Meets.forM (fun after => Kept solver after) _ accountable.kept
  exact fun item member before => (keeps item member).continue_from

/-- An action that only thins the catalog. -/
theorem of_thins (thins : ∀ kinds (solver : Solver α), solver.Accounted kinds →
    action.Meets solver (fun _ after => Thinned kinds solver after)
      (fun _ _ => False) InOrder) : action.Keeps := by
  intro solver ⟨kinds, accounted⟩
  apply (thins kinds solver accounted).mono
  · exact fun _ after thinned => thinned.kept
  · exact fun _ _ => False.elim
  · exact fun _ => id

end Keeps

/-! ## Building -/

theorem keeps_removeConstraint (key : Symbol) : (removeConstraint key : Action α Unit).Keeps :=
  .of_thins fun _ _ accounted => meets_removeConstraint accounted key

theorem keeps_createVariable : (createVariable : Action α VariableHandle).Keeps := by
  rintro solver ⟨kinds, accounted⟩
  apply (meets_createVariable accounted).weaken
  exact fun _ after ⟨accountable, follows⟩ => ⟨follows, accountable⟩

/-- A change of a variable that spares its cache and its mark. -/
theorem keeps_modify_unknown (symbol : Symbol) (change : Variable α → Variable α)
    (spares : ∀ state, (change state).isStale = state.isStale ∧
      (change state).value = state.value) :
    (update fun solver : Solver α =>
      { solver with unknowns := solver.unknowns.modify symbol change }).Keeps :=
  fun _ ⟨_, accounted⟩ => Meets.update (accounted.modify_unknown symbol change spares).kept

theorem keeps_shareVariable (handle : VariableHandle) :
    (shareVariable handle : Action α Unit).Keeps := by
  intro solver accountable
  refine Meets.read_bind (Meets.demand_bind ?_ fun _ _ => accountable.spared)
  intro _ _
  exact keeps_modify_unknown _ Variable.retained (fun _ => ⟨rfl, rfl⟩) solver accountable

theorem keeps_giveUpVariable (handle : VariableHandle) :
    (giveUpVariable handle : Action α Unit).Keeps := by
  apply Keeps.of_thins
  intro kinds solver accounted
  apply Meets.read_bind
  split
  · exact meets_releaseVariable accounted _
  · exact Meets.pure accounted.thinned

theorem keeps_createConstraint (strength : Strength α) :
    (createConstraint strength : Action α ConstraintHandle).Keeps := by
  rintro solver ⟨kinds, accounted⟩
  apply (meets_createConstraint accounted strength).weaken
  exact fun _ after => Rewritten.kept

theorem keeps_addTerm (handle : ConstraintHandle) (inside : VariableHandle) (coefficient : α) :
    (addTerm handle inside coefficient).Keeps := by
  intro solver accountable
  have ⟨kinds, accounted⟩ := accountable
  refine Meets.read_bind (Meets.demand_bind ?_ fun _ _ => accountable.spared)
  intro state is_state
  refine Meets.read_bind (Meets.demand_bind ?_ fun _ _ => accountable.spared)
  intro constraint is_constraint
  obtain ⟨placed, absent⟩ := accounted.placed_of_findInactive is_constraint
  have proper := accounted.proper_of_findVariable is_state
  apply Meets.bind
  · exact meets_replaceConstraint accounted (placed.addTerm absent proper coefficient) absent
  · intro _ between rewritten
    apply (meets_trackTerm rewritten.toAccounted _ _ _).weaken
    exact fun _ after thinned => rewritten.kept.trans thinned.kept

theorem keeps_addConstant (handle : ConstraintHandle) (constant : α) :
    (addConstant handle constant).Keeps := by
  intro solver accountable
  have ⟨kinds, accounted⟩ := accountable
  refine Meets.read_bind (Meets.demand_bind ?_ fun _ _ => accountable.spared)
  intro constraint is_constraint
  obtain ⟨placed, absent⟩ := accounted.placed_of_findInactive is_constraint
  apply (meets_replaceConstraint accounted (placed.addConstant absent constant) absent).weaken
  exact fun _ after => Rewritten.kept

theorem keeps_mergeConstraint (handle source : ConstraintHandle) (factor : α) :
    (mergeConstraint handle source factor).Keeps := by
  rintro solver ⟨kinds, accounted⟩
  apply (meets_mergeConstraint accounted source factor).mono
  · exact fun _ after => Rewritten.kept
  · rintro reason _ rfl
    exact Accountable.spared ⟨kinds, accounted⟩
  · exact fun _ => id

theorem keeps_setRelation (handle : ConstraintHandle) (relation : Relation) :
    (setRelation handle relation : Action α Unit).Keeps := by
  intro solver accountable
  have ⟨kinds, accounted⟩ := accountable
  refine Meets.read_bind (Meets.demand_bind ?_ fun _ _ => accountable.spared)
  intro constraint is_constraint
  obtain ⟨placed, absent⟩ := accounted.placed_of_findInactive is_constraint
  split
  · exact Meets.refuse accountable.spared
  · apply (meets_replaceConstraint accounted (placed.relate absent relation) absent).weaken
    exact fun _ after => Rewritten.kept

/-- Changing a constraint without markers into another one without markers. -/
theorem rewritten_modify {key : Symbol} (accounted : solver.Accounted kinds)
    (idle : solver.constraints.Idle key) (change : Constraint α → Constraint α)
    (same : ∀ state, (change state).expression = state.expression ∧
      (change state).markers = state.markers) :
    Rewritten kinds key solver
      { solver with constraints := solver.constraints.modify key change } := by
  have spares : SameCaches solver
      { solver with constraints := solver.constraints.modify key change } :=
    .of_eq rfl rfl fun _ => rfl
  refine ⟨accounted.with_constraints ?_, spares.follows rfl, fun state found => ?_, rfl⟩
  · apply accounted.filed.modify
    intro constraint found
    have absent := (same constraint).2.trans (idle constraint found)
    refine ⟨.of_absent ?_ absent, Or.inl absent⟩
    rw [(same constraint).1]
    exact (accounted.filed.placed _ constraint found).expression
  · dsimp only at found
    rw [Catalog.get?_modify, if_pos rfl] at found
    obtain ⟨before, was, rfl⟩ := Option.map_eq_some_iff.mp found
    exact (same before).2.trans (idle before was)

/-- The relation is copied last, to a constraint that has stayed without markers. -/
theorem keeps_copyConstraint (source : ConstraintHandle) (strength : Strength α) :
    (copyConstraint source strength).Keeps := by
  intro solver accountable
  have ⟨kinds, accounted⟩ := accountable
  refine Meets.read_bind (Meets.demand_bind ?_ fun _ _ => accountable.spared)
  intro copied _
  apply Meets.bind ((meets_createConstraint accounted _).weaken fun _ _ => id)
  intro handle created written
  apply Meets.bind
  · apply (meets_mergeConstraint written.toAccounted source 1).mono fun _ _ => id
    · rintro reason _ rfl
      exact written.kept.spared written.kept.accountable.spared
    · exact fun _ => id
  · intro _ merged rewritten
    have related := rewritten_modify rewritten.toAccounted rewritten.idle (fun state =>
      { state with relation := copied.relation }) fun _ => ⟨rfl, rfl⟩
    exact Meets.update_bind (Meets.pure ((written.kept.trans rewritten.kept).trans related.kept))

theorem keeps_withdrawConstraint (handle : ConstraintHandle) :
    (withdrawConstraint handle : Action α Unit).Keeps := by
  apply Keeps.of_thins
  intro kinds solver accounted
  apply Meets.read_bind
  cases solver.findConstraint handle with
  | ok _ => exact (meets_deactivate accounted).weaken fun _ _ => Detached.toThinned
  | error _ => exact Meets.pure accounted.thinned

/-- Only a constraint that has been taken out is wiped out. -/
theorem keeps_eraseConstraint (handle : ConstraintHandle) :
    (eraseConstraint handle : Action α Unit).Keeps := by
  rintro solver ⟨kinds, accounted⟩
  apply Meets.read_bind
  cases solver.findConstraint handle with
  | error _ => exact Meets.pure accounted.thinned.kept
  | ok _ =>
      apply Meets.bind (meets_deactivate accounted)
      intro _ between detached
      apply Meets.read_bind
      cases found : between.constraints.get? handle.key with
      | none => exact Meets.pure detached.kept
      | some constraint =>
          have absent := detached.idle constraint found
          apply Meets.bind (meets_replaceConstraint detached.toAccounted (.erased absent) absent)
          intro _ erased rewritten
          apply (meets_forM rewritten.toAccounted constraint.expression.terms _).weaken
          · intro _ after released
            exact (detached.kept.trans rewritten.kept).trans released.kept
          · exact fun term _ before accounted => meets_releaseVariable accounted term.1

theorem keeps_discardConstraint (handle : ConstraintHandle) :
    (discardConstraint handle : Action α Unit).Keeps := by
  apply Keeps.of_thins
  intro kinds solver accounted
  apply Meets.read_bind
  cases solver.findConstraint handle with
  | ok _ => exact meets_removeConstraint accounted handle.key
  | error _ => exact Meets.pure accounted.thinned

section Unit

variable (unit : Scalar.negligible (0 + -1 : α) = false)

include unit

/-- Letting a constraint take part does not rewrite it, whether it is refused or not. -/
theorem meets_addConstraint (accountable : solver.Accountable) (handle : ConstraintHandle) :
    (addConstraint handle).Meets solver
      (fun _ after => Kept solver after ∧ Recast handle.key solver after)
      (fun reason after => Spared solver reason after ∧ Recast handle.key solver after)
      InOrder := by
  have ⟨kinds, accounted⟩ := accountable
  have declines := Recast.refl handle.key solver
  refine Meets.read_bind (Meets.demand_bind ?_ fun _ _ => ⟨accountable.spared, declines⟩)
  intro constraint is_constraint
  obtain ⟨_, there⟩ := of_findConstraint is_constraint
  split
  · exact Meets.refuse ⟨accountable.spared, declines⟩
  · rename_i inactive
    have idle : solver.constraints.Idle handle.key := by
      intro state found
      obtain rfl := Option.some.inj (there.symm.trans found)
      exact (accounted.filed.placed _ constraint there).absent (by simpa using inactive)
    exact (meets_activate unit accounted idle).mono (fun _ _ joined => ⟨joined.kept, joined.recast⟩)
      (fun _ _ declined => ⟨declined.spared, declined.recast⟩) fun _ => id

theorem keeps_addConstraint (handle : ConstraintHandle) :
    (addConstraint handle : Action α Unit).Keeps :=
  fun _ accountable => (meets_addConstraint unit accountable handle).mono (fun _ _ => And.left)
    (fun _ _ => And.left) fun _ => id

/-- Assigning a strength and letting the constraint take part with it. -/
theorem meets_reactivate {key : Symbol} (accounted : solver.Accounted kinds)
    (idle : solver.constraints.Idle key) (strength : Strength α) :
    (do
      update fun solver => { solver with constraints := solver.constraints.modify key fun state =>
        { state with strength } }
      activate key : Action α Unit).Meets solver
        (fun _ after => Kept solver after ∧ Recast key solver after)
        (fun reason after => Spared solver reason after ∧ Recast key solver after) InOrder := by
  have assigned := rewritten_modify accounted idle (fun state => { state with strength })
    fun _ => ⟨rfl, rfl⟩
  have recast := Recast.modify solver key (fun state => { state with strength }) fun _ => rfl
  apply Meets.update_bind
  apply (meets_activate unit assigned.toAccounted assigned.idle).mono
  · exact fun _ after joined => ⟨assigned.kept.trans joined.kept, recast.trans joined.recast⟩
  · exact fun reason after declined =>
      ⟨assigned.kept.spared declined.spared, recast.trans declined.recast⟩
  · exact fun _ => id

omit unit in
/-- A strength that is required exactly if the old one is asks for the same markers. -/
theorem kept_assign {key : Symbol} {constraint : Constraint α}
    (accounted : solver.Accounted kinds) (found : solver.constraints.get? key = some constraint)
    {strength : Strength α} (same : strength.isRequired = constraint.strength.isRequired) :
    Kept solver { solver with constraints := solver.constraints.modify key fun state =>
      { state with strength } } := by
  have spares : SameCaches solver { solver with
      constraints := solver.constraints.modify key fun state => { state with strength } } :=
    .of_eq rfl rfl fun _ => rfl
  refine ⟨spares.follows rfl, kinds, accounted.with_constraints ?_⟩
  apply accounted.filed.modify
  intro state there
  obtain rfl := Option.some.inj (found.symm.trans there)
  have placed := accounted.filed.placed key constraint found
  refine ⟨⟨placed.expression, ?_, placed.owned⟩, Or.inr rfl⟩
  rw [same]
  exact placed.markers

omit [Scalar α] unit in
/-- A strength is taken over, and nothing else of the constraint changes. -/
theorem get?_assign {key : Symbol} {constraint : Constraint α} {strength : Strength α}
    (found : solver.constraints.get? key = some constraint) :
    (solver.constraints.modify key fun state => { state with strength }).get? key =
      some { constraint with strength } := by
  rw [Catalog.get?_modify, if_pos rfl, found]
  rfl

omit unit in
/-- The prices of an active constraint change in place, and its strength is taken over. -/
theorem meets_price {key : Symbol} {constraint : Constraint α} {strength : Strength α}
    (accounted : solver.Accounted kinds) (found : solver.constraints.get? key = some constraint)
    (same : strength.isRequired = constraint.strength.isRequired)
    {refused : Refusal → Solver α → Prop} :
    (do
      rework fun tableau => tableau.charge constraint.markers.errors
        (strength.weight - constraint.strength.weight)
      optimize
      refreshIfAutomatic
      update fun solver => { solver with constraints := solver.constraints.modify key fun state =>
        { state with strength } } : Action α Unit).Meets solver (fun _ after =>
          Kept solver after ∧ Recast key solver after ∧
            after.constraints.get? key = some { constraint with strength }) refused InOrder := by
  have charged := accounted.reworked_adopt (accounted.ordered.charge
    (accounted.filed.placed key constraint found).proper_errors
    (strength.weight - constraint.strength.weight)) (Tableau.reports_with_objective _ _)
  apply Meets.rework_bind
  apply Meets.bind (meets_optimize charged.toWorkable)
  intro _ between optimized
  have rested := (optimized.after_rework charged).refreshIfAutomatic
  have settled := rested.accounted accounted.filed (Nat.le_refl _)
  have kept : Kept solver _ := ⟨rested.toRenews.follows, kinds, settled⟩
  have there := found
  rw [← rested.constraints] at there
  exact Meets.update_bind (Meets.update ⟨kept.trans (kept_assign settled there same),
    (rested.recast key).trans (.modify _ key _ fun _ => rfl), get?_assign there⟩)

omit unit in
/-- Between two strengths that are not required the prices change in place. A strength of the same
weight is not taken over. -/
theorem meets_reprice {key : Symbol} {constraint : Constraint α} {strength : Strength α}
    (accounted : solver.Accounted kinds) (found : solver.constraints.get? key = some constraint)
    (soft : constraint.strength.isRequired = false) (soft' : strength.isRequired = false)
    {refused : Refusal → Solver α → Prop} :
    (changeStrength key strength).Meets solver (fun _ after => Kept solver after ∧
      Recast key solver after ∧ ∃ now, (now = constraint.strength ∨ now = strength) ∧
        after.constraints.get? key = some { constraint with strength := now })
      refused InOrder := by
  have same : strength.isRequired = constraint.strength.isRequired := soft'.trans soft.symm
  apply Meets.read_bind
  simp only [found, soft, soft', Bool.or_self, Bool.false_eq_true, if_false]
  split
  · have kept : Kept solver solver := Accountable.kept ⟨kinds, accounted⟩
    exact Meets.pure ⟨kept, .refl key solver, _, Or.inl rfl, found⟩
  · split
    · apply (meets_price accounted found same).weaken
      exact fun _ after ⟨kept, recast, there⟩ => ⟨kept, recast, strength, Or.inr rfl, there⟩
    · exact Meets.update ⟨kept_assign accounted found same, .modify solver key _ fun _ => rfl,
        strength, Or.inr rfl, get?_assign found⟩

/-- A strength changes without a change of the expression, whether it is refused or not. -/
theorem meets_changeStrength (accountable : solver.Accountable) (key : Symbol)
    (strength : Strength α) :
    (changeStrength key strength).Meets solver
      (fun _ after => Kept solver after ∧ Recast key solver after)
      (fun reason after => Spared solver reason after ∧ Recast key solver after) InOrder := by
  have ⟨kinds, accounted⟩ := accountable
  have unmoved := Recast.refl key solver
  cases found : solver.constraints.get? key with
  | none =>
      apply Meets.read_bind
      simp only [found]
      exact Meets.refuse ⟨accountable.spared, unmoved⟩
  | some constraint =>
      by_cases both : (constraint.strength.isRequired || strength.isRequired) = true
      · apply Meets.read_bind
        simp only [found, both, if_true]
        split
        · exact Meets.pure ⟨accountable.kept, unmoved⟩
        · split
          · apply Meets.bind (meets_deactivate accounted)
            intro _ between detached
            apply (meets_reactivate unit detached.toAccounted detached.idle strength).mono
            · exact fun _ after ⟨kept, recast⟩ =>
                ⟨detached.kept.trans kept, detached.recast.trans recast⟩
            · exact fun reason after ⟨spared, recast⟩ =>
                ⟨detached.kept.spared spared, detached.recast.trans recast⟩
            · exact fun _ => id
          · rename_i inactive
            apply meets_reactivate unit accounted _ strength
            intro state there
            obtain rfl := Option.some.inj (found.symm.trans there)
            exact (accounted.filed.placed key constraint found).absent (by simpa using inactive)
      · rw [Bool.not_eq_true, Bool.or_eq_false_iff] at both
        apply (meets_reprice accounted found both.1 both.2).weaken
        exact fun _ after ⟨kept, recast, _⟩ => ⟨kept, recast⟩

theorem keeps_changeStrength (key : Symbol) (strength : Strength α) :
    (changeStrength key strength).Keeps :=
  fun _ accountable => (meets_changeStrength unit accountable key strength).mono
    (fun _ _ => And.left) (fun _ _ => And.left) fun _ => id

theorem keeps_setStrength (handle : ConstraintHandle) (strength : Strength α) :
    (setStrength handle strength).Keeps := by
  intro solver accountable
  refine Meets.read_bind (Meets.demand_bind ?_ fun _ _ => accountable.spared)
  intro _ _
  exact keeps_changeStrength unit handle.key strength.orRequired solver accountable

/-! ## Editing -/

omit unit in
theorem keeps_draft (handle : VariableHandle) (strength : Strength α) (value : α) :
    (draft handle strength value).Keeps := by
  apply Keeps.bind (keeps_createConstraint _)
  intro hidden
  apply Keeps.bind (keeps_setRelation hidden .equal)
  intro _
  apply Keeps.bind (keeps_addTerm hidden handle 1)
  intro _
  exact Keeps.bind (keeps_addConstant hidden _) fun _ => Keeps.pure hidden

/-- A refused edit leaves as much behind as the refused constraint. -/
theorem keeps_beginEdit (handle : VariableHandle) (strength : Strength α) :
    (beginEdit handle strength).Keeps := by
  intro solver accountable
  rw [beginEdit_eq]
  refine Meets.read_bind (Meets.demand_bind ?_ fun _ _ => accountable.spared)
  intro state _
  cases state.edit with
  | some key => exact keeps_changeStrength unit key _ solver accountable
  | none =>
      apply Keeps.bind (keeps_draft handle _ _) _ solver accountable
      intro hidden solver accountable
      apply Meets.bind (Meets.attempt (keeps_addConstraint unit hidden solver accountable))
      intro result between
      cases result with
      | error reason =>
          intro spared
          obtain ⟨kinds, accounted⟩ := spared.accountable
          apply Meets.bind (meets_removeConstraint accounted hidden.key)
          exact fun _ after thinned => Meets.refuse (spared.then_kept thinned.kept)
      | ok _ =>
          exact (keeps_modify_unknown handle.symbol (fun now =>
            { now with edit := some hidden.key, target := state.value })
              fun _ => ⟨rfl, rfl⟩).continue_from

end Unit

/-- With dependable arithmetic the edit of a variable that is not edited yet is never refused. -/
theorem meets_beginEdit (dependable : Scalar.Dependable α) {handle : VariableHandle}
    {state : Variable α} (accountable : solver.Accountable)
    (found : solver.findVariable handle = .ok state) (unedited : state.edit = none)
    (strength : Strength α) :
    (beginEdit handle strength).Meets solver (fun _ after => Kept solver after ∧
      Begun handle.symbol (.pull strength.orRequired.cappedAtStrong handle.symbol state.value)
        state.value solver after) (fun _ _ => False) InOrder := by
  have ⟨_, accounted⟩ := accountable
  have present := (accounted.proper_of_findVariable found).1.isNull_eq_false
  have drafts := (keeps_draft handle strength.orRequired.cappedAtStrong state.value solver
    accountable).and (meets_draft dependable found present strength.orRequired.cappedAtStrong
      state.value : Meets _ _ _ (fun _ _ => False) fun _ => True)
  rw [beginEdit_eq]
  refine Meets.read_bind (Meets.granted_bind found ?_)
  simp only [unedited]
  apply Meets.bind (drafts.mono (fun _ _ => id) (fun _ _ => And.right) fun _ => And.left)
  rintro _ drafted ⟨kept, rfl, draft⟩
  rw [dependable.capped_orRequired] at draft
  have ⟨_, accounted'⟩ := kept.accountable
  have idle : drafted.constraints.Idle ⟨solver.lastConstraint + 1, .external⟩ := by
    intro constraint there
    rw [← Option.some.inj (draft.found.symm.trans there)]
    rfl
  have activates := meets_activate dependable.lowered_counts accounted' idle
  have adds : (addConstraint ⟨solver.lastConstraint + 1, solver.identity⟩).Meets drafted
      (fun _ after => Joined ⟨solver.lastConstraint + 1, .external⟩ drafted after)
      (fun _ _ => False) InOrder := by
    refine Meets.read_bind (Meets.granted_bind draft.findConstraint ?_)
    apply activates.mono (fun _ _ => id)
    · intro _ after declined
      have required := declined.isRequired dependable kept.accountable draft.found
      rw [Constraint.pull_strength, dependable.capped_not_required] at required
      exact Bool.noConfusion required
    · exact fun _ => id
  apply Meets.bind (Meets.attempt adds)
  intro result between
  cases result with
  | error reason => exact False.elim
  | ok _ =>
      intro joined
      apply Meets.update
      have ⟨_, accounted''⟩ := joined.accountable
      have marked := accounted''.modify_unknown handle.symbol (fun now =>
        { now with edit := some ⟨solver.lastConstraint + 1, .external⟩, target := state.value })
        fun _ => ⟨rfl, rfl⟩
      exact ⟨(kept.trans joined.kept).trans marked.kept, draft.begun joined state.value⟩

/-- Constants are moved along the markers of a placed constraint. -/
theorem reworked_shift {constraint : Constraint α} (accounted : solver.Accounted kinds)
    (placed : constraint.Placed kinds solver.symbols.last) (amount : α) :
    Reworked kinds solver.symbols.last (· ≤ solver.symbols.last) solver
      (solver.adopt (solver.tableau.shift constraint.markers amount)) := by
  apply accounted.reworked_adopt
  · exact accounted.ordered.shift (fun present =>
      (placed.proper_markers (Or.inl rfl) present).1) (fun present =>
        (placed.proper_markers (Or.inr rfl) present).1) amount
  · exact accounted.ordered.reports_shift (placed.internal (Or.inl rfl))
      (placed.internal (Or.inr rfl)) amount

/-- Moving a target moves constants of the tableau, along markers or along nothing. -/
theorem meets_moveTarget (accounted : solver.Accounted kinds) (symbol key : Symbol)
    (previous target : α) {refused : Refusal → Solver α → Prop} :
    (moveTarget symbol key previous target).Meets solver (fun _ after => Kept solver after ∧
      Reworked kinds solver.symbols.last (· ≤ solver.symbols.last) { solver with
        unknowns := solver.unknowns.modify symbol fun state => { state with target } } after)
      refused InOrder := by
  have aimed := accounted.modify_unknown symbol (fun state => { state with target })
    fun _ => ⟨rfl, rfl⟩
  have settles : ∀ between : Solver α,
      Reworked kinds solver.symbols.last (· ≤ solver.symbols.last) { solver with
        unknowns := solver.unknowns.modify symbol fun state => { state with target } } between →
        (do repair; refreshIfAutomatic : Action α Unit).Meets between
          (fun _ after => Kept solver after ∧
            Reworked kinds solver.symbols.last (· ≤ solver.symbols.last) { solver with
              unknowns := solver.unknowns.modify symbol fun state => { state with target } } after)
          refused InOrder := by
    intro between reworked
    apply Meets.bind (meets_repair reworked.toWorkable)
    intro _ after repaired
    have rested := (repaired.after_rework reworked).refreshIfAutomatic
    apply Meets.update
    exact ⟨aimed.kept.trans ⟨rested.toRenews.follows, kinds,
      rested.toRepaired.accounted aimed.filed (Nat.le_refl _)⟩, rested.toReworked⟩
  refine Meets.update_bind (Meets.read_bind ?_)
  dsimp only
  cases found : solver.constraints.get? key with
  | none => exact settles _ aimed.toWorkable.reworked
  | some constraint =>
      apply Meets.rework_bind
      exact settles _ (reworked_shift aimed.toAccounted
        (accounted.filed.placed key constraint found) (target - previous))

theorem keeps_moveTarget (symbol key : Symbol) (previous target : α) :
    (moveTarget symbol key previous target).Keeps :=
  fun _ ⟨_, accounted⟩ => (meets_moveTarget accounted symbol key previous target).weaken
    fun _ _ => And.left

theorem keeps_moveIfBegun (symbol : Symbol) (target : α) (begun : Except Refusal Unit) :
    (moveIfBegun symbol target begun).Keeps := by
  intro solver accountable
  apply Meets.read_bind
  split
  · split
    · exact Meets.pure accountable.kept
    · exact keeps_moveTarget _ _ _ _ solver accountable
  · exact Meets.pure accountable.kept

/-- A refused edit is not told of, and no target is moved then. -/
theorem meets_suggest {handle : VariableHandle} {refused : Refusal → Solver α → Prop}
    (accountable : solver.Accountable)
    (begins : ∀ state, solver.findVariable handle = .ok state → state.edit = none →
      (beginEdit handle Strength.medium).Meets solver (fun _ after => Kept solver after)
        refused InOrder) (target : α) :
    (suggest handle target).Meets solver
      (fun _ after => Kept solver after ∨ ∃ reason, refused reason after)
      (fun reason after => Spared solver reason after) InOrder := by
  apply Meets.read_bind
  cases found : solver.findVariable handle with
  | error _ => exact Meets.pure (Or.inl accountable.kept)
  | ok state =>
      dsimp only
      split
      · apply (keeps_moveIfBegun _ _ _ solver accountable).weaken
        exact fun _ _ => Or.inl
      · rename_i unedited
        have unedited : state.edit = none := by simpa using unedited
        apply Meets.bind (Meets.attempt (begins state found unedited))
        intro begun between
        cases begun with
        | ok _ =>
            intro kept
            apply ((keeps_moveIfBegun _ _ _).continue_from kept).weaken
            exact fun _ _ => Or.inl
        | error reason =>
            exact fun refused => Meets.read_bind (Meets.pure (Or.inr ⟨_, refused⟩))

/-- With dependable arithmetic no edit that a suggestion begins is refused. -/
theorem keeps_suggest (dependable : Scalar.Dependable α) (handle : VariableHandle) (target : α) :
    (suggest handle target).Keeps := by
  intro solver accountable
  have begins : ∀ state, solver.findVariable handle = .ok state → state.edit = none →
      (beginEdit handle Strength.medium).Meets solver (fun _ after => Kept solver after)
        (fun _ _ => False) InOrder := by
    intro state found unedited
    exact (meets_beginEdit dependable accountable found unedited _).weaken fun _ _ => And.left
  apply (meets_suggest accountable begins target).weaken
  exact fun _ after answered => answered.resolve_right fun ⟨_, never⟩ => never

theorem keeps_endEdit (handle : VariableHandle) : (endEdit handle : Action α Unit).Keeps := by
  intro solver accountable
  apply Meets.read_bind
  split
  · exact Meets.pure accountable.kept
  · split
    · exact Meets.pure accountable.kept
    · have freed := keeps_modify_unknown handle.symbol (fun state : Variable α =>
        { state with edit := none, target := 0 }) fun _ => ⟨rfl, rfl⟩
      exact freed.bind (fun _ => keeps_removeConstraint _) solver accountable

theorem keeps_refreshAll : (refreshAll : Action α Unit).Keeps :=
  fun solver ⟨kinds, accounted⟩ => Meets.update ⟨.refresh solver, kinds, accounted.refresh⟩

theorem keeps_forgetEdits : (forgetEdits : Action α (List Symbol)).Keeps := by
  rintro solver ⟨kinds, accounted⟩
  exact Meets.read_bind (Meets.update_bind (Meets.pure
    (accounted.with_unknowns (.forget_edits solver)).kept))

theorem accounts_setAutoUpdate (autoUpdate : Bool) :
    (setAutoUpdate autoUpdate : Action α Unit).Accounts :=
  fun _ ⟨kinds, accounted⟩ => Meets.update
    ⟨kinds, ⟨⟨⟨accounted.registered, accounted.waiting⟩, accounted.ordered, accounted.untouched⟩,
      accounted.filed, accounted.rested⟩⟩

/-- Without rows and prices there are no symbols in the tableau. -/
theorem accounts_emptyTableau : (emptyTableau : Action α Unit).Accounts := by
  rintro solver ⟨kinds, accounted⟩
  have thins := Catalog.Thins.stripAll solver.constraints
  exact Meets.update ⟨kinds, ⟨⟨accounted.registered, accounted.waiting⟩, accounted.ordered.cleared,
    accounted.untouched⟩, thins.filed accounted.filed, rfl⟩

/-- A full reset is a reset in part that is followed by emptying the tableau. -/
theorem reset_true_eq : (reset true : Action α Unit) = (do reset false; emptyTableau) := by
  unfold reset
  rw [bind_assoc]
  congr 1
  funext solver
  cases solver.autoUpdate <;> simp

theorem keeps_reset : (reset false : Action α Unit).Keeps := by
  have rest : (do
      let edits ← forgetEdits
      edits.forM removeConstraint
      refreshAll : Action α Unit).Keeps := by
    apply Keeps.bind keeps_forgetEdits
    intro edits
    apply Keeps.bind (Keeps.forM fun key _ => keeps_removeConstraint key)
    exact fun _ => keeps_refreshAll
  intro solver accountable
  apply Meets.read_bind
  cases solver.autoUpdate with
  | false => exact Keeps.bind keeps_refreshAll (fun _ => rest) solver accountable
  | true => exact rest solver accountable

end Action

/-! ## Commands -/

/-- All commands but those that swallow a refusal, empty the tableau, or choose whether caches are
refreshed without being asked for. -/
def Command.Plain : Command α → Prop
  | suggest _ _ | reset _ | setAutoUpdate _ => False
  | _ => True

theorem Command.keeps (unit : Scalar.negligible (0 + -1 : α) = false) {command : Command α}
    (plain : command.Plain) : command.action.Keeps := by
  have finished : ∀ request : Action α Unit, request.Keeps → (action.finish request).Keeps :=
    fun _ keeps => keeps.bind fun _ => Action.Keeps.pure Reply.done
  cases command with
  | createVariable => exact Action.keeps_createVariable.map
  | createConstraint strength => exact (Action.keeps_createConstraint strength).map
  | copyConstraint source strength => exact (Action.keeps_copyConstraint source strength).map
  | shareVariable handle => exact finished _ (Action.keeps_shareVariable handle)
  | giveUpVariable handle => exact finished _ (Action.keeps_giveUpVariable handle)
  | mergeConstraint handle source factor =>
      exact finished _ (Action.keeps_mergeConstraint handle source factor)
  | addTerm handle inside coefficient =>
      exact finished _ (Action.keeps_addTerm handle inside coefficient)
  | addConstant handle constant => exact finished _ (Action.keeps_addConstant handle constant)
  | setRelation handle relation => exact finished _ (Action.keeps_setRelation handle relation)
  | setStrength handle strength => exact finished _ (Action.keeps_setStrength unit handle strength)
  | addConstraint handle => exact finished _ (Action.keeps_addConstraint unit handle)
  | withdrawConstraint handle => exact finished _ (Action.keeps_withdrawConstraint handle)
  | eraseConstraint handle => exact finished _ (Action.keeps_eraseConstraint handle)
  | discardConstraint handle => exact finished _ (Action.keeps_discardConstraint handle)
  | beginEdit handle strength => exact finished _ (Action.keeps_beginEdit unit handle strength)
  | suggest => exact plain.elim
  | endEdit handle => exact finished _ (Action.keeps_endEdit handle)
  | refresh => exact finished _ Action.keeps_refreshAll
  | reset => exact plain.elim
  | setAutoUpdate => exact plain.elim

/-- Every command keeps accounts, provided that the unit counts. -/
theorem Command.accounts (unit : Scalar.negligible (0 + -1 : α) = false) (command : Command α) :
    command.action.Accounts := by
  have finished : ∀ request : Action α Unit, request.Accounts →
      (action.finish request).Accounts :=
    fun _ accounts => accounts.bind fun _ => Action.Accounts.pure Reply.done
  by_cases plain : command.Plain
  · exact (Command.keeps unit plain).accounts
  · cases command with
    | suggest handle target =>
        apply finished
        intro solver accountable
        have begins := Action.keeps_beginEdit unit handle Strength.medium solver accountable
        apply (Action.meets_suggest accountable (fun _ _ _ => begins) target).mono
        · rintro _ after (kept | ⟨reason, spared⟩)
          · exact kept.accountable
          · exact spared.accountable
        · exact fun _ _ => Solver.Spared.accountable
        · exact fun _ => id
    | reset dropConstraints =>
        apply finished
        cases dropConstraints with
        | false => exact Action.keeps_reset.accounts
        | true =>
            rw [Action.reset_true_eq]
            exact Action.keeps_reset.accounts.bind fun _ => Action.accounts_emptyTableau
    | setAutoUpdate autoUpdate => exact finished _ (Action.accounts_setAutoUpdate autoUpdate)
    | _ => exact absurd trivial plain

/-- What the action of a command meets, its execution meets. -/
theorem Solver.perform_meets {command : Command α} {answered : Reply → Solver α → Prop}
    {refused : Refusal → Solver α → Prop} {paused : Solver α → Prop}
    (meets : command.action.Meets solver answered refused paused) (steps : Nat) :
    match (solver.perform command steps).1 with
    | .answered reply => answered reply (solver.perform command steps).2
    | .refused reason => refused reason (solver.perform command steps).2
    | .paused => paused (solver.perform command steps).2 := by
  have here := meets steps
  unfold perform
  revert here
  cases command.action ⟨solver, steps⟩ with
  | ok reply session => exact id
  | error interrupt session => cases interrupt <;> exact id

/-- What every answer and every refusal of an action meets holds at the end of its execution. -/
theorem Solver.perform_of_final {command : Command α} {kept : Solver α → Prop}
    {paused : Solver α → Prop}
    (meets : command.action.Meets solver (fun _ after => kept after) (fun _ after => kept after)
      paused) {steps : Nat} (final : (solver.perform command steps).1.isFinal = true) :
    kept (solver.perform command steps).2 := by
  have here := perform_meets meets steps
  revert here final
  cases (solver.perform command steps).1 with
  | answered reply => exact fun _ => id
  | refused reason => exact fun _ => id
  | paused => exact fun final => Bool.noConfusion final

/-- However a command ends, it leaves the tableau in order, and if it does not pause, everything is
accounted for. -/
theorem Solver.Accountable.perform (accountable : solver.Accountable)
    (unit : Scalar.negligible (0 + -1 : α) = false) (command : Command α) (steps : Nat) :
    (solver.perform command steps).2.InOrder ∧
      ((solver.perform command steps).1.isFinal = true →
        (solver.perform command steps).2.Accountable) := by
  have accounts := command.accounts unit solver accountable
  constructor
  · have inOrder : ∀ after : Solver α, after.Accountable → after.InOrder :=
      fun _ ⟨_, accounted⟩ => accounted.inOrder
    have here := perform_meets (accounts.mono (fun _ => inOrder) (fun _ => inOrder) fun _ => id)
      steps
    revert here
    cases (solver.perform command steps).1 <;> exact id
  · exact perform_of_final accounts

end SoftSimplex
