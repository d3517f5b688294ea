import SoftSimplex.Proofs.Solver.Balance
import SoftSimplex.Proofs.Solver.Conduct

/-!
# Anchors

An edited variable is anchored: its hidden constraint is registered, belongs to no other variable,
and bears a number that was not handed out. Nothing is said about references, so this holds even
where callers give up more of them than they hold, and variables go while they are edited.

Most actions only end edits and keep every constraint registered. A constraint is removed either
because a caller asks for it, and then it was handed out, or because the edit that it is hidden
behind has just ended. After a variable has gone, no other one is anchored where it was.
-/

namespace SoftSimplex

variable {α : Type}

namespace Solver

variable {solver between after : Solver α} {apart apart' : Nat → Prop} {key symbol : Symbol}

/-- Edits have at most ended, and every constraint is still registered. -/
structure HoldsOn (solver after : Solver α) : Prop where
  edits : ∀ symbol key, after.PulledBy symbol key → solver.PulledBy symbol key
  registered : ∀ key constraint, solver.constraints.get? key = some constraint →
    ∃ now, after.constraints.get? key = some now
  later : solver.lastConstraint ≤ after.lastConstraint

instance : IsPreorder (Solver α) HoldsOn where
  refl _ := ⟨fun _ _ => id, fun _ constraint found => ⟨constraint, found⟩, Nat.le_refl _⟩
  trans _ _ _ first second := by
    refine ⟨fun symbol key => first.edits symbol key ∘ second.edits symbol key,
      fun key constraint found => ?_, first.later.trans second.later⟩
    obtain ⟨now, there⟩ := first.registered key constraint found
    exact second.registered key now there

theorem SameRecords.pulledBy_iff (same : SameRecords solver after) (symbol key : Symbol) :
    after.PulledBy symbol key ↔ solver.PulledBy symbol key := by
  apply pulledBy_congr
  have edits := congrArg (Option.map fun outline : Nat × Option Symbol × α => outline.2.1)
    (same.outline symbol)
  rwa [Option.map_map, Option.map_map] at edits

theorem Remarked.holdsOn (remarked : Remarked key solver after) : HoldsOn solver after := by
  refine ⟨fun symbol edit => (remarked.pulledBy_iff symbol edit).mp,
    fun sought constraint found => ?_, remarked.lastConstraint.ge⟩
  by_cases same : sought.id = key.id
  · have written := remarked.written
    rw [← solver.constraints.get?_congr same, found, Option.map_some] at written
    obtain ⟨now, there, _⟩ := Option.map_eq_some_iff.mp written
    exact ⟨now, (after.constraints.get?_congr same).trans there⟩
  · exact ⟨constraint, (remarked.elsewhere sought same).trans found⟩

theorem HoldsOn.modify_constraint (solver : Solver α) (key : Symbol)
    (change : Constraint α → Constraint α) :
    HoldsOn solver { solver with constraints := solver.constraints.modify key change } := by
  refine ⟨fun _ _ => id, fun sought constraint found => ?_, Nat.le_refl _⟩
  dsimp only
  rw [Catalog.get?_modify, found]
  split
  · exact ⟨_, rfl⟩
  · exact ⟨constraint, rfl⟩

theorem HoldsOn.with_unknowns (unknowns : Catalog (Variable α))
    (edits : ∀ symbol key, ({ solver with unknowns } : Solver α).PulledBy symbol key →
      solver.PulledBy symbol key) : HoldsOn solver { solver with unknowns } :=
  ⟨edits, fun _ constraint found => ⟨constraint, found⟩, Nat.le_refl _⟩

theorem HoldsOn.modify_unknown (solver : Solver α) (symbol : Symbol)
    (change : Variable α → Variable α) (same : ∀ state, (change state).edit = state.edit) :
    HoldsOn solver { solver with unknowns := solver.unknowns.modify symbol change } :=
  .with_unknowns _ fun sought key =>
    (pulledBy_congr (Catalog.map_get?_modify _ symbol sought _ same) key).mp

theorem HoldsOn.erase_unknown (solver : Solver α) (symbol : Symbol) :
    HoldsOn solver { solver with unknowns := solver.unknowns.erase symbol } := by
  apply HoldsOn.with_unknowns
  rintro sought key ⟨state, found, edited⟩
  exact ⟨state, (Catalog.of_get?_erase found).2, edited⟩

/-- Every edited variable has a registered constraint of its own, whose number does not stand
apart. -/
structure Anchored (apart : Nat → Prop) (solver : Solver α) : Prop where
  held : ∀ symbol key, solver.PulledBy symbol key → ¬ apart key.id ∧
    ∃ constraint, solver.constraints.get? key = some constraint
  unique : ∀ symbol symbol' key key', solver.PulledBy symbol key →
    solver.PulledBy symbol' key' → key.id = key'.id → symbol.id = symbol'.id
  below : ∀ symbol key, solver.PulledBy symbol key → key.id ≤ solver.lastConstraint
  apart_below : ∀ id, apart id → id ≤ solver.lastConstraint

theorem Anchored.of_unedited (unedited : ∀ symbol key, ¬ solver.PulledBy symbol key)
    (apart_below : ∀ id, apart id → id ≤ solver.lastConstraint) : solver.Anchored apart :=
  ⟨fun symbol key pulled => absurd pulled (unedited symbol key),
    fun symbol _ key _ pulled => absurd pulled (unedited symbol key),
    fun symbol key pulled => absurd pulled (unedited symbol key), apart_below⟩

theorem Anchored.new [Scalar α] (identity : Nat) (options : Options) :
    (Solver.new identity options : Solver α).Anchored (· ∈ []) := by
  apply Anchored.of_unedited
  · rintro symbol key ⟨state, found, _⟩
    rw [Solver.new, Catalog.get?_new] at found
    exact absurd found.symm (Option.some_ne_none state)
  · exact fun _ member => absurd member List.not_mem_nil

namespace Anchored

variable (anchored : solver.Anchored apart)

include anchored

/-- New numbers may stand apart. -/
theorem hold (holds : HoldsOn solver after)
    (wider : ∀ id, apart' id → apart id ∨ solver.lastConstraint < id)
    (low : ∀ id, apart' id → id ≤ after.lastConstraint) : after.Anchored apart' := by
  constructor
  · intro symbol key pulled
    have before := holds.edits symbol key pulled
    obtain ⟨hidden, constraint, found⟩ := anchored.held symbol key before
    refine ⟨fun stands => ?_, holds.registered key constraint found⟩
    rcases wider key.id stands with stands | new
    · exact hidden stands
    · exact absurd (anchored.below symbol key before) (Nat.not_le_of_lt new)
  · intro symbol symbol' key key' pulled pulled'
    exact anchored.unique _ _ _ _ (holds.edits symbol key pulled) (holds.edits symbol' key' pulled')
  · intro symbol key pulled
    exact (anchored.below symbol key (holds.edits symbol key pulled)).trans holds.later
  · exact low

theorem hold_same (holds : HoldsOn solver after) : after.Anchored apart :=
  anchored.hold holds (fun _ => Or.inl) fun id stands =>
    (anchored.apart_below id stands).trans holds.later

theorem mono (within : ∀ id, apart' id → apart id) : solver.Anchored apart' :=
  anchored.hold (refl_of HoldsOn solver) (fun id stands => Or.inl (within id stands))
    fun id stands => anchored.apart_below id (within id stands)

/-- When the edit of a variable ends, the number of its hidden constraint may stand apart. -/
theorem release (pulled : solver.PulledBy symbol key) (holds : HoldsOn solver after)
    (ended : ∀ sought edit, after.PulledBy sought edit → sought.id ≠ symbol.id) :
    after.Anchored fun id => id = key.id ∨ apart id := by
  have kept := anchored.hold_same holds
  refine ⟨fun sought edit still => ?_, kept.unique, kept.below, ?_⟩
  · obtain ⟨hidden, registered⟩ := kept.held sought edit still
    refine ⟨not_or_intro (fun same => ?_) hidden, registered⟩
    exact ended sought edit still
      (anchored.unique _ _ _ _ (holds.edits sought edit still) pulled same)
  · rintro id (rfl | stands)
    · exact (anchored.below symbol key pulled).trans holds.later
    · exact kept.apart_below id stands

/-- A constraint whose number stands apart may go. -/
theorem remove (stands : apart key.id) :
    ({ solver with constraints := solver.constraints.erase key } : Solver α).Anchored apart := by
  refine ⟨fun symbol edit pulled => ?_, anchored.unique, anchored.below, anchored.apart_below⟩
  obtain ⟨hidden, constraint, found⟩ := anchored.held symbol edit pulled
  refine ⟨hidden, constraint, ?_⟩
  dsimp only
  rw [Catalog.get?_erase, if_neg]
  · exact found
  · exact fun same => hidden (same ▸ stands)

/-- The edit of a variable begins with a new constraint. -/
theorem begin {pull : Constraint α} {target : α} (registered : solver.Knows symbol)
    (begun : Begun symbol pull target solver after) : after.Anchored apart := by
  obtain ⟨hidden, there, _⟩ := begun.hidden
  have later : solver.lastConstraint ≤ after.lastConstraint :=
    begun.lastConstraint ▸ Nat.le_succ _
  have split : ∀ sought edit, after.PulledBy sought edit →
      (sought.id = symbol.id ∧ edit = ⟨solver.lastConstraint + 1, .external⟩) ∨
        solver.PulledBy sought edit := by
    intro sought edit pulled
    by_cases same : sought.id = symbol.id
    · exact Or.inl ⟨same, (begun.pulledBy_same registered same edit).mp pulled⟩
    · exact Or.inr ((begun.pulledBy_apart same edit).mp pulled)
  have old : ∀ {sought edit}, solver.PulledBy sought edit →
      edit.id ≠ solver.lastConstraint + 1 := fun pulled =>
    Nat.ne_of_lt (Nat.lt_succ_of_le (anchored.below _ _ pulled))
  constructor
  · intro sought edit pulled
    rcases split sought edit pulled with ⟨_, rfl⟩ | before
    · refine ⟨fun stands => ?_, hidden, there⟩
      exact absurd (anchored.apart_below _ stands) (Nat.not_succ_le_self _)
    · obtain ⟨unissued, constraint, found⟩ := anchored.held sought edit before
      exact ⟨unissued, constraint, (begun.elsewhere edit (old before)).trans found⟩
  · intro sought sought' edit edit' pulled pulled' shared
    rcases split sought edit pulled with ⟨same, rfl⟩ | before <;>
      rcases split sought' edit' pulled' with ⟨same', rfl⟩ | before'
    · exact same.trans same'.symm
    · exact absurd shared.symm (old before')
    · exact absurd shared (old before)
    · exact anchored.unique _ _ _ _ before before' shared
  · intro sought edit pulled
    rcases split sought edit pulled with ⟨_, rfl⟩ | before
    · exact begun.lastConstraint.ge
    · exact (anchored.below sought edit before).trans later
  · exact fun id stands => (anchored.apart_below id stands).trans later

end Anchored

/-- The solver is anchored if the one before it was. -/
def StaysAnchored (apart : Nat → Prop) (solver after : Solver α) : Prop :=
  solver.Anchored apart → after.Anchored apart

instance (apart : Nat → Prop) : IsPreorder (Solver α) (StaysAnchored apart) where
  refl _ := id
  trans _ _ _ first second := second ∘ first

theorem HoldsOn.staysAnchored (holds : HoldsOn solver after) : StaysAnchored apart solver after :=
  fun anchored => anchored.hold_same holds

end Solver

namespace Action

open Solver

variable {ρ τ : Type} {action : Action α ρ} {apart : Nat → Prop} {solver : Solver α}
  {key symbol : Symbol}

/-- Staying anchored has to be shown from anchored solvers only. -/
theorem Along.of_anchored (meets : ∀ solver : Solver α, solver.Anchored apart →
      action.Meets solver (fun _ after => after.Anchored apart)
        (fun _ after => after.Anchored apart) fun after => after.Anchored apart) :
    action.Along (StaysAnchored apart) := by
  intro solver steps
  by_cases anchored : solver.Anchored apart
  · have here := meets solver anchored steps
    revert here
    cases action ⟨solver, steps⟩ with
    | ok result session => exact fun after _ => after
    | error interrupt session => cases interrupt <;> exact fun after _ => after
  · cases action ⟨solver, steps⟩ with
    | ok result session => exact fun before => absurd before anchored
    | error interrupt session => cases interrupt <;> exact fun before => absurd before anchored

theorem Along.anchored (along : action.Along (StaysAnchored apart))
    (anchored : solver.Anchored apart) : action.Meets solver (fun _ after => after.Anchored apart)
      (fun _ after => after.Anchored apart) fun after => after.Anchored apart :=
  (along solver).mono (fun _ _ stays => stays anchored) (fun _ _ stays => stays anchored)
    fun _ stays => stays anchored

/-- Nothing is asked of a pause. -/
theorem Along.leaves_anchored (along : action.Along (StaysAnchored apart))
    (anchored : solver.Anchored apart) : action.Meets solver (fun _ after => after.Anchored apart)
      (fun _ after => after.Anchored apart) fun _ => True :=
  (along.anchored anchored).mono (fun _ _ => id) (fun _ _ => id) fun _ _ => trivial

theorem Along.stays (along : action.Along HoldsOn) : action.Along (StaysAnchored apart) :=
  along.mono fun _ _ => HoldsOn.staysAnchored

/-! ## Actions that hold on -/

theorem Along.holdsOn (along : action.Along (Remarked key)) : action.Along HoldsOn :=
  along.mono fun _ _ => Remarked.holdsOn

theorem holds_replaceConstraint (handle : ConstraintHandle) (constraint : Constraint α) :
    (replaceConstraint handle constraint).Along HoldsOn :=
  .update fun solver => .modify_constraint solver _ _

section Scalars

variable [Scalar α]

theorem holds_addConstant (handle : ConstraintHandle) (constant : α) :
    (addConstant handle constant).Along HoldsOn :=
  .read_bind fun _ => (Along.demand _).bind fun _ => holds_replaceConstraint _ _

theorem holds_setRelation (handle : ConstraintHandle) (relation : Relation) :
    (setRelation handle relation : Action α Unit).Along HoldsOn := by
  refine .read_bind fun _ => (Along.demand _).bind fun _ => ?_
  split
  · exact .refuse _
  · exact holds_replaceConstraint _ _

theorem holds_addConstraint (handle : ConstraintHandle) :
    (addConstraint handle : Action α Unit).Along HoldsOn := by
  refine .read_bind fun _ => (Along.demand _).bind fun _ => ?_
  split
  · exact .refuse _
  · exact (along_activate _).holdsOn

theorem holds_withdrawConstraint (handle : ConstraintHandle) :
    (withdrawConstraint handle : Action α Unit).Along HoldsOn := by
  apply Along.read_bind
  intro _
  split
  · exact (along_deactivate _).holdsOn
  · exact .pure _

theorem holds_changeStrength (key : Symbol) (strength : Strength α) :
    (changeStrength key strength).Along HoldsOn := by
  have assigns : (update fun solver : Solver α => { solver with
      constraints := solver.constraints.modify key fun state =>
        { state with strength } }).Along HoldsOn :=
    .update fun solver => .modify_constraint solver _ _
  have reactivates := assigns.bind fun _ => (along_activate key).holdsOn
  have reprices (change : Tableau α → Tableau α) := ((along_rework key change).bind fun _ =>
    along_settle key).holdsOn.bind fun _ => assigns
  apply Along.read_bind
  intro _
  split
  · exact .refuse _
  · dsimp only
    split
    · exact .pure _
    · split
      · split
        · simpa using (along_deactivate key).holdsOn.bind fun _ => reactivates
        · simpa using reactivates
      · split
        · simpa [bind_assoc] using reprices _
        · simpa using assigns

theorem holds_setStrength (handle : ConstraintHandle) (strength : Strength α) :
    (setStrength handle strength).Along HoldsOn :=
  .read_bind fun _ => (Along.demand _).bind fun _ => holds_changeStrength _ _

theorem holds_moveTarget (symbol key : Symbol) (previous target : α) :
    (moveTarget symbol key previous target).Along HoldsOn := by
  have settles : (do repair; refreshIfAutomatic : Action α Unit).Along HoldsOn :=
    ((along_repair key).bind fun _ => along_refreshIfAutomatic key).holdsOn
  refine .update_bind (fun solver => .modify_unknown solver _ _ fun _ => rfl)
    (.read_bind fun _ => ?_)
  split
  · exact settles
  · exact (along_rework key _).holdsOn.bind fun _ => settles

theorem holds_moveIfBegun (symbol : Symbol) (target : α) (begun : Except Refusal Unit) :
    (moveIfBegun symbol target begun).Along HoldsOn := by
  apply Along.read_bind
  intro _
  split
  · split
    · exact .pure _
    · exact holds_moveTarget _ _ _ _
  · exact .pure _

theorem holds_refreshAll : (refreshAll : Action α Unit).Along HoldsOn :=
  .update fun solver => (remarked_refresh Symbol.null solver).holdsOn

omit [Scalar α] in
theorem holds_setAutoUpdate (autoUpdate : Bool) :
    (setAutoUpdate autoUpdate : Action α Unit).Along HoldsOn :=
  .update fun _ => ⟨fun _ _ => id, fun _ constraint found => ⟨constraint, found⟩, Nat.le_refl _⟩

theorem holds_emptyTableau : (emptyTableau : Action α Unit).Along HoldsOn := by
  refine .update fun solver => ⟨fun _ _ => id, fun key constraint found => ?_, Nat.le_refl _⟩
  refine ⟨constraint.unmarked, ?_⟩
  dsimp only
  rw [solver.constraints.get?_pass () _ Constraint.unmarked (fun _ _ => rfl), found,
    Option.map_some]

theorem holds_createVariable : (createVariable : Action α VariableHandle).Along HoldsOn := by
  refine fun solver => Meets.read_bind (Meets.update_bind (Meets.pure ?_))
  refine ⟨?_, fun _ constraint found => ⟨constraint, found⟩, Nat.le_refl _⟩
  rintro symbol key ⟨state, found, edited⟩
  rcases Catalog.of_get?_insert found with ⟨_, rfl⟩ | ⟨_, there⟩
  · exact absurd edited.symm (Option.some_ne_none key)
  · exact ⟨state, there, edited⟩

omit [Scalar α] in
theorem holds_shareVariable (handle : VariableHandle) :
    (shareVariable handle : Action α Unit).Along HoldsOn :=
  .read_bind fun _ => (Along.demand _).bind fun _ =>
    .update fun solver => .modify_unknown solver _ _ fun _ => rfl

omit [Scalar α] in
/-- If a variable goes that was edited, its hidden constraint may go too. -/
theorem meets_dropReference_anchored (anchored : solver.Anchored apart) (symbol : Symbol) :
    (dropReference symbol : Action α (Option Symbol)).Meets solver
      (fun edit? after => after.Anchored fun id => (∃ key ∈ edit?, id = key.id) ∨ apart id)
      (fun _ after => after.Anchored apart) fun after => after.Anchored apart := by
  have unedited : ∀ after : Solver α, HoldsOn solver after →
      after.Anchored fun id => (∃ key ∈ (none : Option Symbol), id = key.id) ∨ apart id := by
    refine fun after holds => (anchored.hold_same holds).mono fun id => ?_
    rintro (⟨_, member, _⟩ | stands)
    · exact absurd member (Option.not_mem_none _)
    · exact stands
  apply Meets.read_bind
  cases found : solver.unknowns.get? symbol with
  | none => exact Meets.pure (unedited solver (refl_of HoldsOn solver))
  | some state =>
      dsimp only
      split
      · exact Meets.update_bind (Meets.pure (unedited _
          (.modify_unknown solver symbol Variable.released fun _ => rfl)))
      · have erased := HoldsOn.erase_unknown solver symbol
        refine Meets.update_bind (Meets.pure ?_)
        cases edited : state.edit with
        | none => exact unedited _ erased
        | some key =>
            have ended : ∀ sought edit, ({ solver with
                unknowns := solver.unknowns.erase symbol } : Solver α).PulledBy sought edit →
                  sought.id ≠ symbol.id :=
              fun _ _ ⟨_, there, _⟩ => (Catalog.of_get?_erase there).1
            apply (anchored.release ⟨state, found, edited⟩ erased ended).mono
            rintro id (⟨_, member, rfl⟩ | stands)
            · exact Or.inl (congrArg Symbol.id (Option.some.inj member).symm)
            · exact Or.inr stands

omit [Scalar α] in
/-- Whatever removes constraints that stand apart may remove the one that goes with a variable. -/
theorem anchors_dropReference {removal : Symbol → Action α Unit} (symbol : Symbol)
    (removes : ∀ (key : Symbol) (apart : Nat → Prop), apart key.id →
      (removal key).Along (StaysAnchored apart)) :
    (do
      match ← dropReference symbol with
      | none => pure ()
      | some edit => removal edit : Action α Unit).Along (StaysAnchored apart) := by
  refine .of_anchored fun solver anchored => ?_
  apply Meets.bind (meets_dropReference_anchored anchored symbol)
  intro edit? between dropped
  cases edit? with
  | none => exact Meets.pure (dropped.mono fun _ => Or.inr)
  | some key =>
      have stands := removes key (fun id => (∃ edit ∈ some key, id = edit.id) ∨ apart id)
        (Or.inl ⟨key, rfl, rfl⟩)
      exact (stands.anchored dropped).mono (fun _ _ after => after.mono fun _ => Or.inr)
        (fun _ _ after => after.mono fun _ => Or.inr) fun _ after => after.mono fun _ => Or.inr

theorem anchors_removeWithin (depth : Nat) (key : Symbol) (apart : Nat → Prop)
    (stands : apart key.id) :
    (removeWithin depth key : Action α Unit).Along (StaysAnchored apart) := by
  induction depth generalizing key apart with
  | zero => exact .pure _
  | succ depth inductionHypothesis =>
      refine (along_deactivate key).holdsOn.stays.bind fun _ => ?_
      refine .of_anchored fun solver anchored => ?_
      apply Meets.read_bind
      unfold Catalog.take?
      cases solver.constraints.get? key with
      | none => exact Meets.pure anchored
      | some constraint =>
          have walk : (constraint.expression.terms.forM fun term : Symbol × α => (do
              match ← dropReference term.1 with
              | none => pure ()
              | some edit => removeWithin depth edit : Action α PUnit)).Along
                (StaysAnchored apart) :=
            .forM fun term => anchors_dropReference term.1 inductionHypothesis
          exact Meets.update_bind (walk.anchored (anchored.remove stands))

theorem anchors_removeConstraint (key : Symbol) (apart : Nat → Prop) (stands : apart key.id) :
    (removeConstraint key : Action α Unit).Along (StaysAnchored apart) :=
  .read_bind fun _ => anchors_removeWithin _ key apart stands

theorem anchors_releaseVariable (symbol : Symbol) :
    (releaseVariable symbol : Action α Unit).Along (StaysAnchored apart) :=
  anchors_dropReference symbol anchors_removeConstraint

theorem anchors_giveUpVariable (handle : VariableHandle) :
    (giveUpVariable handle : Action α Unit).Along (StaysAnchored apart) := by
  apply Along.read_bind
  intro _
  split
  · exact anchors_releaseVariable _
  · exact .pure _

theorem anchors_trackTerm (symbol : Symbol) (was now : LinearForm α) :
    (trackTerm symbol was now).Along (StaysAnchored apart) := by
  unfold trackTerm
  split
  · exact .update fun solver =>
      (HoldsOn.modify_unknown solver _ Variable.retained fun _ => rfl).staysAnchored
  · exact anchors_releaseVariable symbol
  · exact .pure _

theorem anchors_addTerm (handle : ConstraintHandle) (inside : VariableHandle) (coefficient : α) :
    (addTerm handle inside coefficient).Along (StaysAnchored apart) := by
  refine .read_bind fun _ => (Along.demand _).bind fun _ => .read_bind fun _ => ?_
  refine (Along.demand _).bind fun _ => (holds_replaceConstraint _ _).stays.bind fun _ => ?_
  exact anchors_trackTerm _ _ _

theorem anchors_mergeConstraint (handle source : ConstraintHandle) (factor : α) :
    (mergeConstraint handle source factor).Along (StaysAnchored apart) := by
  refine .read_bind fun _ => (Along.demand _).bind fun _ => .read_bind fun _ => ?_
  refine (Along.demand _).bind fun _ => (holds_replaceConstraint _ _).stays.bind fun _ => ?_
  exact .forM fun _ => anchors_trackTerm _ _ _

theorem anchors_eraseConstraint (handle : ConstraintHandle) :
    (eraseConstraint handle : Action α Unit).Along (StaysAnchored apart) := by
  apply Along.read_bind
  intro _
  split
  · exact .pure _
  · refine (along_deactivate _).holdsOn.stays.bind fun _ => .read_bind fun _ => ?_
    split
    · exact .pure _
    · refine (holds_replaceConstraint _ _).stays.bind fun _ => .forM fun term => ?_
      exact anchors_releaseVariable term.1

/-- A constraint is handed out under a new number. -/
theorem anchored_createConstraint (anchored : solver.Anchored apart) (strength : Strength α) :
    (createConstraint strength : Action α ConstraintHandle).Meets solver
      (fun handle after => handle.id = solver.lastConstraint + 1 ∧
        after.Anchored fun id => id = solver.lastConstraint + 1 ∨ apart id)
      (fun _ after => after.Anchored apart) fun _ => True := by
  refine Meets.read_bind (Meets.update_bind (Meets.pure ⟨rfl, ?_⟩))
  refine anchored.hold ⟨fun _ _ => id, fun key constraint found => ?_, Nat.le_succ _⟩ ?_ ?_
  · dsimp only
    rw [Catalog.get?_insert]
    split
    · exact ⟨_, rfl⟩
    · exact ⟨constraint, found⟩
  · rintro id (rfl | stands)
    · exact Or.inr (Nat.lt_succ_self _)
    · exact Or.inl stands
  · rintro id (rfl | stands)
    · exact Nat.le_refl _
    · exact (anchored.apart_below id stands).trans (Nat.le_succ _)

/-- A copy that is refused was refused before anything changed, or its terms were. -/
theorem anchored_copyConstraint (anchored : solver.Anchored apart) (source : ConstraintHandle)
    (strength : Strength α) :
    (copyConstraint source strength).Meets solver
      (fun handle after => after.Anchored fun id => id = handle.id ∨ apart id)
      (fun _ after => after.Anchored apart) fun _ => True := by
  refine Meets.read_bind (Meets.demand_bind (fun copied _ => ?_) fun _ _ => anchored)
  apply Meets.bind (anchored_createConstraint anchored _)
  rintro handle created ⟨named, anchored'⟩
  apply Meets.bind
  · exact ((anchors_mergeConstraint handle source 1).leaves_anchored anchored').mono
      (fun _ _ => id) (fun _ _ after => after.mono fun _ => Or.inr) fun _ => id
  · intro _ merged stays
    refine Meets.update_bind (Meets.pure ?_)
    rw [named]
    exact stays.hold_same (.modify_constraint merged _ _)

theorem anchored_discardConstraint {handle : ConstraintHandle} (anchored : solver.Anchored apart)
    (own : handle.owner = solver.identity → apart handle.id) :
    (discardConstraint handle : Action α Unit).Meets solver (fun _ after => after.Anchored apart)
      (fun _ after => after.Anchored apart) fun _ => True := by
  apply Meets.read_bind
  cases is_constraint : solver.findConstraint handle with
  | error _ => exact Meets.pure anchored
  | ok _ =>
      have stands := own (of_findConstraint is_constraint).1
      exact (anchors_removeConstraint handle.key apart stands).leaves_anchored anchored

omit [Scalar α] in
/-- When all edits end at once, no variable is edited, and every number may stand apart. -/
theorem unedited_forgetEdits {refused : Refusal → Solver α → Prop} {paused : Solver α → Prop} :
    (forgetEdits : Action α (List Symbol)).Meets solver
      (fun keys after => keys = solver.edits ∧ after.Anchored (· ≤ solver.lastConstraint))
      refused paused := by
  refine Meets.read_bind (Meets.update_bind (Meets.pure ⟨pass_edits solver.unknowns, ?_⟩))
  refine .of_unedited ?_ fun _ => id
  rintro symbol key ⟨state, found, edited⟩
  have forgotten := solver.unknowns.get?_pass [] (fun edits state =>
    ({ state with edit := none }, edits ++ state.edit.toList))
    (fun state => { state with edit := none }) (fun _ _ => rfl) symbol
  obtain ⟨_, _, rfl⟩ := Option.map_eq_some_iff.mp (forgotten.symm.trans found)
  exact absurd edited.symm (Option.some_ne_none key)

section Edits

variable {handle : VariableHandle} (dependable : Scalar.Dependable α)
  (accountable : solver.Accountable) (anchored : solver.Anchored apart)

include dependable accountable anchored

theorem anchored_beginEdit (strength : Strength α) :
    (beginEdit handle strength).Meets solver (fun _ after => after.Anchored apart)
      (fun _ after => after.Anchored apart) fun _ => True := by
  cases is_state : solver.findVariable handle with
  | error _ => exact Meets.read_bind (Meets.denied_bind is_state anchored)
  | ok state =>
      cases edited : state.edit with
      | some key =>
          refine Meets.read_bind (Meets.granted_bind is_state ?_)
          simp only [edited]
          exact (holds_changeStrength key _).stays.leaves_anchored anchored
      | none =>
          have registered : solver.Knows handle.symbol := ⟨state, (of_findVariable is_state).2⟩
          exact (meets_beginEdit dependable accountable is_state edited strength).mono
            (fun _ _ both => anchored.begin registered both.2) (fun _ _ => False.elim)
            fun _ _ => trivial

theorem anchored_suggest (target : α) :
    (suggest handle target).Meets solver (fun _ after => after.Anchored apart)
      (fun _ after => after.Anchored apart) fun _ => True := by
  have moves : ∀ (begun : Except Refusal Unit) (between : Solver α), between.Anchored apart →
      (moveIfBegun handle.symbol target begun).Meets between (fun _ after => after.Anchored apart)
        (fun _ after => after.Anchored apart) fun _ => True :=
    fun begun _ anchored => (holds_moveIfBegun _ target begun).stays.leaves_anchored anchored
  apply Meets.read_bind
  cases solver.findVariable handle with
  | error _ => exact Meets.pure anchored
  | ok state =>
      dsimp only
      split
      · exact moves _ solver anchored
      · have begins : (beginEdit handle Strength.medium).Meets solver
            (fun _ after => after.Anchored apart) (fun _ after => after.Anchored apart)
            fun _ => True := anchored_beginEdit dependable accountable anchored Strength.medium
        apply Meets.bind (Meets.attempt begins)
        intro begun between
        cases begun <;> exact moves _ between

omit dependable accountable

theorem anchored_endEdit :
    (endEdit handle : Action α Unit).Meets solver (fun _ after => after.Anchored apart)
      (fun _ after => after.Anchored apart) fun _ => True := by
  apply Meets.read_bind
  cases is_state : solver.findVariable handle with
  | error _ => exact Meets.pure anchored
  | ok state =>
      dsimp only
      cases edited : state.edit with
      | none => exact Meets.pure anchored
      | some key =>
          have pulled : solver.PulledBy handle.symbol key :=
            ⟨state, (of_findVariable is_state).2, edited⟩
          have unpulled : ∀ sought edit, ({ solver with
              unknowns := solver.unknowns.modify handle.symbol fun state =>
                { state with edit := none, target := 0 } } : Solver α).PulledBy sought edit →
                  sought.id ≠ handle.symbol.id ∧ solver.PulledBy sought edit := by
            rintro sought edit ⟨now, there, still⟩
            rcases Catalog.of_get?_modify there with ⟨_, before, _, rfl⟩ | ⟨other, there⟩
            · exact absurd still.symm (Option.some_ne_none edit)
            · exact ⟨other, now, there, still⟩
          have released := anchored.release pulled
            (.with_unknowns _ fun sought edit still => (unpulled sought edit still).2)
            fun sought edit still => (unpulled sought edit still).1
          have removes : (removeConstraint key : Action α Unit).Along
              (StaysAnchored fun id => id = key.id ∨ apart id) :=
            anchors_removeConstraint key _ (Or.inl rfl)
          apply Meets.update_bind
          exact (removes.leaves_anchored released).mono (fun _ _ after => after.mono fun _ => Or.inr)
            (fun _ _ after => after.mono fun _ => Or.inr) fun _ => id

/-- The constraints of all edits go, and only numbers that stood apart before stand apart still. -/
theorem anchored_endAll : (do
    let edits ← forgetEdits
    edits.forM removeConstraint
    refreshAll : Action α Unit).Meets solver (fun _ after => after.Anchored apart)
      (fun _ after => after.Anchored apart) fun _ => True := by
  have narrow : ∀ after : Solver α, after.Anchored (· ≤ solver.lastConstraint) →
      after.Anchored apart := fun _ after => after.mono anchored.apart_below
  apply Meets.bind unedited_forgetEdits
  rintro _ forgotten ⟨rfl, unedited⟩
  have removes : (solver.edits.forM removeConstraint).Meets forgotten
      (fun _ after => after.Anchored (· ≤ solver.lastConstraint))
      (fun _ after => after.Anchored apart) fun _ => True := by
    refine Meets.forM _ (fun key member between stays => ?_) unedited
    obtain ⟨symbol, pulled⟩ := (solver.mem_edits_iff_exists key).mp member
    have low := anchored.below symbol key pulled
    exact ((anchors_removeConstraint key _ low).leaves_anchored stays).mono (fun _ _ => id)
      (fun _ => narrow) fun _ => id
  apply Meets.bind removes
  exact fun _ removed stays => Meets.update ((narrow removed stays).hold_same
    (remarked_refresh Symbol.null removed).holdsOn)

theorem anchored_reset (dropConstraints : Bool) :
    (reset dropConstraints : Action α Unit).Meets solver (fun _ after => after.Anchored apart)
      (fun _ after => after.Anchored apart) fun _ => True := by
  have partly : (reset false : Action α Unit).Meets solver (fun _ after => after.Anchored apart)
      (fun _ after => after.Anchored apart) fun _ => True := by
    apply Meets.read_bind
    cases solver.autoUpdate with
    | true => exact anchored_endAll anchored
    | false =>
        exact Meets.update_bind (anchored_endAll (anchored.hold_same
          (remarked_refresh Symbol.null solver).holdsOn))
  cases dropConstraints with
  | false => exact partly
  | true =>
      rw [reset_true_eq]
      exact Meets.bind partly fun _ _ stays => holds_emptyTableau.stays.leaves_anchored stays

end Edits

end Scalars

end Action

/-! ## Commands -/

section Commands

variable [Scalar α] {solver : Solver α} {issued : List Nat}

/-- However a command comes to an end, edited variables stay anchored, if it names only own
constraints that were handed out. -/
theorem Command.anchored (dependable : Scalar.Dependable α) (command : Command α)
    (accountable : solver.Accountable) (anchored : solver.Anchored (· ∈ issued))
    (own : ∀ handle ∈ command.named, handle.owner = solver.identity → handle.id ∈ issued) :
    command.action.Meets solver (fun reply after => after.Anchored (· ∈ reply.issued ++ issued))
      (fun _ after => after.Anchored (· ∈ issued)) fun _ => True := by
  have stays : ∀ {request : Action α Unit},
      request.Along (Solver.StaysAnchored (· ∈ issued)) →
        request.Meets solver (fun _ after => after.Anchored (· ∈ issued))
          (fun _ after => after.Anchored (· ∈ issued)) fun _ => True :=
    fun along => along.leaves_anchored anchored
  have wider : ∀ {handle : ConstraintHandle} {after : Solver α},
      (after.Anchored fun id => id = handle.id ∨ id ∈ issued) →
        after.Anchored (· ∈ (Reply.constraint handle).issued ++ issued) :=
    fun after => after.mono fun _ => List.mem_cons.mp
  cases command with
  | createVariable =>
      exact Action.Meets.map (Action.holds_createVariable.stays.leaves_anchored anchored)
  | createConstraint strength =>
      apply Action.Meets.map
      apply (Action.anchored_createConstraint anchored strength).weaken
      rintro handle after ⟨named, created⟩
      exact wider (named ▸ created)
  | copyConstraint source strength =>
      apply Action.Meets.map
      exact (Action.anchored_copyConstraint anchored source strength).weaken fun _ _ => wider
  | shareVariable handle => exact meets_finish (stays (Action.holds_shareVariable handle).stays)
  | giveUpVariable handle => exact meets_finish (stays (Action.anchors_giveUpVariable handle))
  | mergeConstraint handle source factor =>
      exact meets_finish (stays (Action.anchors_mergeConstraint handle source factor))
  | addTerm handle inside coefficient =>
      exact meets_finish (stays (Action.anchors_addTerm handle inside coefficient))
  | addConstant handle constant =>
      exact meets_finish (stays (Action.holds_addConstant handle constant).stays)
  | setRelation handle relation =>
      exact meets_finish (stays (Action.holds_setRelation handle relation).stays)
  | setStrength handle strength =>
      exact meets_finish (stays (Action.holds_setStrength handle strength).stays)
  | addConstraint handle => exact meets_finish (stays (Action.holds_addConstraint handle).stays)
  | withdrawConstraint handle =>
      exact meets_finish (stays (Action.holds_withdrawConstraint handle).stays)
  | eraseConstraint handle => exact meets_finish (stays (Action.anchors_eraseConstraint handle))
  | discardConstraint handle =>
      exact meets_finish (Action.anchored_discardConstraint anchored
        (own handle (List.mem_singleton_self _)))
  | beginEdit handle strength =>
      exact meets_finish (Action.anchored_beginEdit dependable accountable anchored strength)
  | suggest handle target =>
      exact meets_finish (Action.anchored_suggest dependable accountable anchored target)
  | endEdit handle => exact meets_finish (Action.anchored_endEdit anchored)
  | refresh => exact meets_finish (stays Action.holds_refreshAll.stays)
  | reset dropConstraints =>
      exact meets_finish (Action.anchored_reset anchored dropConstraints)
  | setAutoUpdate autoUpdate =>
      exact meets_finish (stays (Action.holds_setAutoUpdate autoUpdate).stays)

/-- After every history without forged handles everything is accounted for, and every edited
variable is anchored. -/
theorem Course.Arises.anchored {course : Course α} (dependable : Scalar.Dependable α)
    (arises : course.Arises Course.Honest) :
    course.solver.Accountable ∧ course.solver.Anchored (· ∈ course.issued) := by
  induction arises with
  | start identity options =>
      exact ⟨⟨_, .new identity options⟩, .new identity options⟩
  | @step course command steps _ honest inductionHypothesis =>
      obtain ⟨accountable, anchored⟩ := inductionHypothesis
      obtain ⟨own, final⟩ := honest
      refine ⟨(accountable.perform dependable.lowered_counts _ _).2 final, ?_⟩
      have here := Solver.perform_meets (command.anchored dependable accountable anchored own) steps
      unfold Course.next
      revert here final
      cases (course.solver.perform command steps).1 with
      | answered reply => exact fun _ => id
      | refused reason => exact fun _ => id
      | paused => exact fun final => Bool.noConfusion final

end Commands

end SoftSimplex
