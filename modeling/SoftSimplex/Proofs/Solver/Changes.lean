import SoftSimplex.Proofs.Solver.Conduct
import SoftSimplex.Proofs.Solver.History
import SoftSimplex.Proofs.Solver.Keeping
import SoftSimplex.Proofs.Solver.Release

/-!
# Commands one change at a time

Whatever commands do to the references to variables comes in small changes: a variable joins with
one reference, gains one, loses one that is not its last, or goes. And whatever they do to the
expressions of constraints comes as what a caller may write. All else that a command does leaves
references and expressions alone, and nothing touches the identity of a solver. So what every change
keeps, every command keeps, however it ends. In particular, nobody is registered without being
referred to.
-/

namespace SoftSimplex

variable {α : Type} [Scalar α]

namespace Solver

variable {solver after : Solver α}

/-- The constraint may be revised into the second one. -/
inductive Revises (solver : Solver α) (constraint : Constraint α) : Constraint α → Prop
  | addTerm {inside : VariableHandle} {state : Variable α}
      (found : solver.findVariable inside = .ok state) (coefficient : α) :
      Revises solver constraint (constraint.addTerm inside.symbol coefficient)
  | addConstant (constant : α) : Revises solver constraint (constraint.addConstant constant)
  | addForm {key : Symbol} {source : Constraint α}
      (found : solver.constraints.get? key = some source) (factor : α) :
      Revises solver constraint (constraint.addForm source.expression factor)
  | relate (relation : Relation) : Revises solver constraint (constraint.relate relation)
  | erase : Revises solver constraint constraint.erased
  | strengthen (strength : Strength α) : Revises solver constraint { constraint with strength }

/-- Every expression has been there before. -/
def Quotes (solver after : Solver α) : Prop :=
  ∀ key constraint, after.constraints.get? key = some constraint →
    ∃ before, solver.constraints.get? key = some before ∧
      constraint.expression = before.expression

omit [Scalar α] in
theorem Quotes.of_eq (same : after.constraints = solver.constraints) : solver.Quotes after :=
  fun _ constraint found => ⟨constraint, same ▸ found, rfl⟩

omit [Scalar α] in
theorem Quotes.of_thins (thins : solver.constraints.Thins after.constraints) :
    solver.Quotes after := by
  intro key constraint found
  obtain ⟨before, was, rfl | rfl⟩ := thins key constraint found
  · exact ⟨_, was, rfl⟩
  · exact ⟨before, was, rfl⟩

omit [Scalar α] in
/-- Changing something of a constraint other than its expression. -/
theorem quotes_modify (solver : Solver α) (key : Symbol) {change : Constraint α → Constraint α}
    (same : ∀ constraint, (change constraint).expression = constraint.expression) :
    solver.Quotes { solver with constraints := solver.constraints.modify key change } := by
  intro sought constraint found
  rcases Catalog.of_get?_modify found with ⟨_, before, was, rfl⟩ | ⟨_, was⟩
  · exact ⟨before, was, same before⟩
  · exact ⟨constraint, was, rfl⟩

omit [Scalar α] in
theorem Remarked.quotes {key : Symbol} (remarked : Remarked key solver after) :
    solver.Quotes after := by
  intro sought constraint found
  by_cases same : sought.id = key.id
  · have written := remarked.written
    rw [← after.constraints.get?_congr same, ← solver.constraints.get?_congr same, found] at written
    obtain ⟨before, was, unmarked⟩ := Option.map_eq_some_iff.mp written.symm
    exact ⟨before, was, (congrArg Constraint.expression unmarked).symm⟩
  · exact ⟨constraint, (remarked.elsewhere sought same).symm.trans found, rfl⟩

/-- One change of a solver, as far as its identity, the references to variables and the expressions
of constraints go. -/
inductive Change (solver : Solver α) : Solver α → Prop where
  | spare {after : Solver α} (identity : after.identity = solver.identity)
      (references : ∀ symbol, after.references symbol = solver.references symbol)
      (quotes : solver.Quotes after) : Change solver after
  | join (symbols : SymbolSupply) (symbol : Symbol) : Change solver
      { solver with symbols, unknowns := solver.unknowns.insert symbol Variable.fresh }
  | retain (symbol : Symbol) : Change solver
      { solver with unknowns := solver.unknowns.modify symbol Variable.retained }
  | release {symbol : Symbol} {state : Variable α}
      (found : solver.unknowns.get? symbol = some state) (shared : 1 < state.references) :
      Change solver { solver with unknowns := solver.unknowns.modify symbol Variable.released }
  | leave (symbol : Symbol) : Change solver
      { solver with unknowns := solver.unknowns.erase symbol }
  | create (lastConstraint : Nat) (key : Symbol) (strength : Strength α) : Change solver
      { solver with
        lastConstraint
        constraints := solver.constraints.insert key (Constraint.blank strength) }
  | write {key : Symbol} {constraint written : Constraint α}
      (found : solver.constraints.get? key = some constraint)
      (revises : solver.Revises constraint written) : Change solver
      { solver with constraints := solver.constraints.modify key fun _ => written }

/-- Any number of changes. -/
def Changes : Solver α → Solver α → Prop := Relation.ReflTransGen Change

instance : IsPreorder (Solver α) Changes where
  refl _ := Relation.ReflTransGen.refl
  trans _ _ _ := Relation.ReflTransGen.trans

theorem Change.changes (change : Change solver after) : Changes solver after :=
  Relation.ReflTransGen.single change

theorem Remarked.changes {key : Symbol} (remarked : Remarked key solver after) :
    Changes solver after := by
  refine Change.changes (.spare remarked.identity (fun symbol => ?_) remarked.quotes)
  have outlines := congrArg (Option.map Prod.fst) (remarked.outline symbol)
  rwa [Option.map_map, Option.map_map] at outlines

/-- Changes that leave identity, variables and expressions alone. -/
theorem changes_of_eq (identity : after.identity = solver.identity)
    (unknowns : after.unknowns = solver.unknowns) (quotes : solver.Quotes after) :
    Changes solver after :=
  Change.changes (.spare identity (fun symbol => by rw [references, references, unknowns]) quotes)

/-- Changing something of a variable other than its references. -/
theorem changes_modify (solver : Solver α) (symbol : Symbol) {change : Variable α → Variable α}
    (same : ∀ state, (change state).references = state.references) :
    Changes solver { solver with unknowns := solver.unknowns.modify symbol change } :=
  Change.changes (.spare rfl (fun sought =>
    Catalog.map_get?_modify _ symbol sought Variable.references same) (.of_eq rfl))

/-- What every change keeps, any number of changes keep. -/
theorem Changes.keeps {kept : Solver α → Prop}
    (each : ∀ before after, Change before after → kept before → kept after)
    (changes : Changes solver after) (holds : kept solver) : kept after := by
  induction changes with
  | refl => exact holds
  | tail _ change inductionHypothesis => exact each _ _ change inductionHypothesis

end Solver

namespace Action

open Solver

/-- What follows some changes changes the solver further. -/
theorem Along.after_changes {ρ : Type} {action : Action α ρ} {solver between : Solver α}
    (along : action.Along Changes) (changes : Changes solver between) :
    action.Meets between (fun _ => Changes solver) (fun _ => Changes solver) (Changes solver) :=
  (along between).mono (fun _ _ => trans_of Changes changes) (fun _ _ => trans_of Changes changes)
    fun _ => trans_of Changes changes

/-- Work for a constraint spares all variables. -/
theorem changes_of_remarked {ρ : Type} {key : Symbol} {action : Action α ρ}
    (along : action.Along (Remarked key)) : action.Along Changes :=
  along.mono fun _ _ remarked => remarked.changes

theorem changes_rework (change : Tableau α → Tableau α) : (rework change).Along Changes :=
  changes_of_remarked (along_rework Symbol.null change)

theorem changes_settle : (do optimize; refreshIfAutomatic : Action α Unit).Along Changes :=
  changes_of_remarked (along_settle Symbol.null)

theorem changes_activate (key : Symbol) : (activate key : Action α Unit).Along Changes :=
  changes_of_remarked (along_activate key)

theorem changes_deactivate (key : Symbol) : (deactivate key : Action α Unit).Along Changes :=
  changes_of_remarked (along_deactivate key)

/-- A reference that is not the last one is released. -/
theorem changes_dropReference (symbol : Symbol) :
    (dropReference symbol : Action α (Option Symbol)).Along Changes := by
  intro solver
  apply Meets.read_bind
  split
  · exact Along.pure _ solver
  · rename_i state found
    split
    · rename_i shared
      exact Meets.update_bind (Meets.pure (Change.release found shared).changes)
    · exact Meets.update_bind (Meets.pure (Change.leave symbol).changes)

theorem changes_removeWithin (depth : Nat) (key : Symbol) :
    (removeWithin depth key : Action α Unit).Along Changes := by
  induction depth generalizing key with
  | zero => exact .pure _
  | succ depth inductionHypothesis =>
      refine (changes_deactivate key).bind fun _ between => Meets.read_bind ?_
      cases found : between.constraints.take? key with
      | none => exact Along.pure _ between
      | some pair =>
          obtain ⟨constraint, there, rfl⟩ := Option.map_eq_some_iff.mp found
          have erases : Changes between
              { between with constraints := between.constraints.erase key } :=
            changes_of_eq rfl rfl (.of_thins (.erase _ _))
          refine Meets.update_bind (Along.after_changes (.forM fun term => ?_) erases)
          apply (changes_dropReference term.1).bind
          intro edit?
          cases edit? with
          | none => exact .pure _
          | some edit => exact inductionHypothesis edit

theorem changes_removeConstraint (key : Symbol) :
    (removeConstraint key : Action α Unit).Along Changes :=
  .read_bind fun _ => changes_removeWithin _ key

theorem changes_releaseVariable (symbol : Symbol) :
    (releaseVariable symbol : Action α Unit).Along Changes := by
  apply (changes_dropReference symbol).bind
  intro edit?
  cases edit? with
  | none => exact .pure _
  | some edit => exact changes_removeConstraint edit

theorem changes_trackTerm (symbol : Symbol) (was now : LinearForm α) :
    (trackTerm symbol was now).Along Changes := by
  unfold trackTerm
  split
  · exact .update fun _ => (Change.retain symbol).changes
  · exact changes_releaseVariable symbol
  · exact .pure _

/-- A constraint is replaced by a revision, and something follows. -/
theorem changes_replaceConstraint {ρ : Type} {solver : Solver α} {handle : ConstraintHandle}
    {constraint written : Constraint α} {following : Unit → Action α ρ}
    (found : solver.constraints.get? handle.key = some constraint)
    (revises : solver.Revises constraint written) (follows : (following ()).Along Changes) :
    (replaceConstraint handle written >>= following).Meets solver (fun _ => Changes solver)
      (fun _ => Changes solver) (Changes solver) :=
  Meets.update_bind (follows.after_changes (Change.write found revises).changes)

theorem changes_createConstraint (strength : Strength α) :
    (createConstraint strength : Action α ConstraintHandle).Along Changes :=
  fun _ => Meets.read_bind (Meets.update_bind (Meets.pure (Change.create _ _ _).changes))

theorem changes_addTerm (handle : ConstraintHandle) (inside : VariableHandle) (coefficient : α) :
    (addTerm handle inside coefficient).Along Changes := by
  intro solver
  refine Meets.read_bind (Meets.demand_bind (fun state is_state => ?_) fun _ _ => refl_of _ solver)
  refine Meets.read_bind (Meets.demand_bind (fun constraint is_constraint => ?_)
    fun _ _ => refl_of _ solver)
  obtain ⟨_, there, _⟩ := of_findInactive is_constraint
  exact changes_replaceConstraint there (.addTerm is_state coefficient) (changes_trackTerm _ _ _)

theorem changes_addConstant (handle : ConstraintHandle) (constant : α) :
    (addConstant handle constant).Along Changes := by
  intro solver
  refine Meets.read_bind (Meets.demand_bind (fun constraint is_constraint => ?_)
    fun _ _ => refl_of _ solver)
  obtain ⟨_, there, _⟩ := of_findInactive is_constraint
  exact Meets.update (Change.write there (.addConstant constant)).changes

theorem changes_mergeConstraint (handle source : ConstraintHandle) (factor : α) :
    (mergeConstraint handle source factor).Along Changes := by
  intro solver
  refine Meets.read_bind (Meets.demand_bind (fun added is_added => ?_) fun _ _ => refl_of _ solver)
  refine Meets.read_bind (Meets.demand_bind (fun constraint is_constraint => ?_)
    fun _ _ => refl_of _ solver)
  obtain ⟨_, there, _⟩ := of_findInactive is_constraint
  exact changes_replaceConstraint there (.addForm (of_findConstraint is_added).2 factor)
    (.forM fun _ => changes_trackTerm _ _ _)

theorem changes_setRelation (handle : ConstraintHandle) (relation : Relation) :
    (setRelation handle relation : Action α Unit).Along Changes := by
  intro solver
  refine Meets.read_bind (Meets.demand_bind (fun constraint is_constraint => ?_)
    fun _ _ => refl_of _ solver)
  obtain ⟨_, there, _⟩ := of_findInactive is_constraint
  split
  · exact Meets.refuse (refl_of _ solver)
  · exact Meets.update (Change.write there (.relate relation)).changes

theorem changes_copyConstraint (source : ConstraintHandle) (strength : Strength α) :
    (copyConstraint source strength).Along Changes := by
  refine .read_bind fun _ => (Along.demand _).bind fun _ => ?_
  refine (changes_createConstraint _).bind fun _ => (changes_mergeConstraint _ _ _).bind ?_
  exact fun _ => .update_bind
    (fun solver => changes_of_eq rfl rfl (solver.quotes_modify _ fun _ => rfl)) (.pure _)

theorem changes_addConstraint (handle : ConstraintHandle) :
    (addConstraint handle : Action α Unit).Along Changes := by
  refine .read_bind fun _ => (Along.demand _).bind fun _ => ?_
  split
  · exact .refuse _
  · exact changes_activate _

theorem changes_withdrawConstraint (handle : ConstraintHandle) :
    (withdrawConstraint handle : Action α Unit).Along Changes := by
  apply Along.read_bind
  intro _
  split
  · exact changes_deactivate _
  · exact .pure _

theorem changes_eraseConstraint (handle : ConstraintHandle) :
    (eraseConstraint handle : Action α Unit).Along Changes := by
  apply Along.read_bind
  intro _
  split
  · exact .pure _
  · refine (changes_deactivate _).bind fun _ between => Meets.read_bind ?_
    split
    · exact Along.pure _ between
    · rename_i constraint found
      exact changes_replaceConstraint found .erase
        (.forM fun term => changes_releaseVariable term.1)

theorem changes_discardConstraint (handle : ConstraintHandle) :
    (discardConstraint handle : Action α Unit).Along Changes := by
  apply Along.read_bind
  intro _
  split
  · exact changes_removeConstraint _
  · exact .pure _

theorem changes_changeStrength (key : Symbol) (strength : Strength α) :
    (changeStrength key strength).Along Changes := by
  have assigns : (update fun solver : Solver α => { solver with
      constraints := solver.constraints.modify key fun state =>
        { state with strength } }).Along Changes :=
    .update fun solver => changes_of_eq rfl rfl (solver.quotes_modify key fun _ => rfl)
  have reactivates := assigns.bind fun _ => changes_activate key
  apply Along.read_bind
  intro _
  split
  · exact .refuse _
  · dsimp only
    split
    · exact .pure _
    · split
      · split
        · simpa using (changes_deactivate key).bind fun _ => reactivates
        · simpa using reactivates
      · split
        · simpa [bind_assoc] using
            ((changes_rework _).bind fun _ => changes_settle).bind fun _ => assigns
        · simpa using assigns

theorem changes_setStrength (handle : ConstraintHandle) (strength : Strength α) :
    (setStrength handle strength).Along Changes :=
  .read_bind fun _ => (Along.demand _).bind fun _ => changes_changeStrength _ _

theorem changes_beginEdit (handle : VariableHandle) (strength : Strength α) :
    (beginEdit handle strength).Along Changes := by
  refine .read_bind fun _ => (Along.demand _).bind fun found => ?_
  dsimp only
  split
  · exact changes_changeStrength _ _
  · refine (changes_createConstraint _).bind fun hidden => ?_
    refine (changes_setRelation _ _).bind fun _ => (changes_addTerm _ _ _).bind fun _ => ?_
    refine (changes_addConstant _ _).bind fun _ => ?_
    refine (changes_addConstraint _).attempt.bind fun added => ?_
    split
    · exact (changes_removeConstraint _).bind fun _ => .refuse _
    · exact .update fun solver => solver.changes_modify handle.symbol fun _ => rfl

theorem changes_moveTarget (symbol key : Symbol) (previous target : α) :
    (moveTarget symbol key previous target).Along Changes := by
  have settles : (do repair; refreshIfAutomatic : Action α Unit).Along Changes :=
    changes_of_remarked ((along_repair Symbol.null).bind fun _ =>
      along_refreshIfAutomatic Symbol.null)
  refine .update_bind (fun solver => ?_) (.read_bind fun _ => ?_)
  · exact solver.changes_modify symbol fun _ => rfl
  split
  · exact settles
  · exact (changes_rework _).bind fun _ => settles

theorem changes_moveIfBegun (symbol : Symbol) (target : α) (begun : Except Refusal Unit) :
    (moveIfBegun symbol target begun).Along Changes := by
  apply Along.read_bind
  intro _
  split
  · split
    · exact .pure _
    · exact changes_moveTarget _ _ _ _
  · exact .pure _

theorem changes_suggest (handle : VariableHandle) (target : α) :
    (suggest handle target).Along Changes := by
  apply Along.read_bind
  intro _
  split
  · exact .pure _
  · split
    · exact changes_moveIfBegun _ _ _
    · exact (changes_beginEdit _ _).attempt.bind fun begun => changes_moveIfBegun _ _ begun

theorem changes_endEdit (handle : VariableHandle) :
    (endEdit handle : Action α Unit).Along Changes := by
  apply Along.read_bind
  intro _
  split
  · exact .pure _
  · split
    · exact .pure _
    · refine .update_bind (fun solver => ?_) (changes_removeConstraint _)
      exact solver.changes_modify handle.symbol fun _ => rfl

theorem changes_forgetEdits : (forgetEdits : Action α (List Symbol)).Along Changes := by
  refine fun solver => Meets.read_bind (Meets.update_bind (Meets.pure ?_))
  refine Change.changes (.spare rfl (fun symbol => ?_) (.of_eq rfl))
  have forgotten := solver.unknowns.get?_pass []
    (fun edits state => ({ state with edit := none }, edits ++ state.edit.toList))
    (fun state => { state with edit := none }) (fun _ _ => rfl) symbol
  refine (congrArg (Option.map Variable.references) forgotten).trans ?_
  rw [Option.map_map]
  rfl

theorem changes_reset (dropConstraints : Bool) :
    (reset dropConstraints : Action α Unit).Along Changes := by
  have refreshes : (refreshAll : Action α Unit).Along Changes :=
    .update fun solver => (remarked_refresh Symbol.null solver).changes
  have ends : (do
      let edits ← forgetEdits
      edits.forM removeConstraint
      refreshAll : Action α Unit).Along Changes := by
    refine changes_forgetEdits.bind fun edits => ?_
    exact (Along.forM changes_removeConstraint).bind fun _ => refreshes
  have partly : (reset false : Action α Unit).Along Changes := by
    apply Along.read_bind
    intro before
    cases before.autoUpdate with
    | false => exact refreshes.bind fun _ => ends
    | true => exact ends
  cases dropConstraints with
  | false => exact partly
  | true =>
      rw [reset_true_eq]
      exact partly.bind fun _ => .update fun _ => changes_of_eq rfl rfl (.of_thins (.stripAll _))

end Action

open Solver

/-- Whatever a command does comes in such changes. -/
theorem Command.changes (command : Command α) : command.action.Along Changes := by
  have finished : ∀ request : Action α Unit,
      request.Along Changes → (action.finish request).Along Changes :=
    fun _ along => along.bind fun _ => .pure _
  cases command with
  | createVariable =>
      refine Action.Along.map (.read_bind fun _ => ?_)
      exact .update_bind (fun _ => (Change.join _ _).changes) (.pure _)
  | createConstraint strength => exact (Action.changes_createConstraint strength).map
  | copyConstraint source strength => exact (Action.changes_copyConstraint source strength).map
  | shareVariable handle =>
      refine finished _ (.read_bind fun _ => (Action.Along.demand _).bind fun _ => ?_)
      exact .update fun _ => (Change.retain _).changes
  | giveUpVariable handle =>
      refine finished _ (.read_bind fun _ => ?_)
      split
      · exact Action.changes_releaseVariable _
      · exact .pure _
  | mergeConstraint handle source factor =>
      exact finished _ (Action.changes_mergeConstraint handle source factor)
  | addTerm handle inside coefficient =>
      exact finished _ (Action.changes_addTerm handle inside coefficient)
  | addConstant handle constant => exact finished _ (Action.changes_addConstant handle constant)
  | setRelation handle relation => exact finished _ (Action.changes_setRelation handle relation)
  | setStrength handle strength => exact finished _ (Action.changes_setStrength handle strength)
  | addConstraint handle => exact finished _ (Action.changes_addConstraint handle)
  | withdrawConstraint handle => exact finished _ (Action.changes_withdrawConstraint handle)
  | eraseConstraint handle => exact finished _ (Action.changes_eraseConstraint handle)
  | discardConstraint handle => exact finished _ (Action.changes_discardConstraint handle)
  | beginEdit handle strength => exact finished _ (Action.changes_beginEdit handle strength)
  | suggest handle target => exact finished _ (Action.changes_suggest handle target)
  | endEdit handle => exact finished _ (Action.changes_endEdit handle)
  | refresh => exact finished _ (.update fun solver =>
      (Action.remarked_refresh Symbol.null solver).changes)
  | reset dropConstraints => exact finished _ (Action.changes_reset dropConstraints)
  | setAutoUpdate autoUpdate =>
      exact finished _ (.update fun _ => changes_of_eq rfl rfl (.of_eq rfl))

namespace Solver

/-- Executing a command changes a solver step by step, however the execution ends. -/
theorem changes_perform (solver : Solver α) (command : Command α) (steps : Nat) :
    Changes solver (solver.perform command steps).2 := by
  have here := perform_meets (command.changes solver) steps
  revert here
  cases (solver.perform command steps).1 <;> exact id

/-! ## What is kept -/

/-- No change touches the identity. -/
theorem Change.identity {solver after : Solver α} (change : Change solver after) :
    after.identity = solver.identity := by
  cases change with
  | spare identity => exact identity
  | _ => rfl

theorem Changes.identity {solver after : Solver α} (changes : Changes solver after) :
    after.identity = solver.identity :=
  changes.keeps (fun _ _ change same => change.identity.trans same) rfl

/-- Every registered variable is referred to. -/
def Attended (solver : Solver α) : Prop :=
  ∀ symbol state, solver.unknowns.get? symbol = some state → 0 < state.references

/-- A variable goes when nobody refers to it any more. -/
theorem Change.attended {solver after : Solver α} (change : Change solver after)
    (attended : solver.Attended) : after.Attended := by
  intro sought state found
  cases change with
  | spare _ references _ =>
      have counted := references sought
      rw [Solver.references, Solver.references, found] at counted
      obtain ⟨before, was, same⟩ := Option.map_eq_some_iff.mp counted.symm
      exact same ▸ attended sought before was
  | join symbols symbol =>
      rcases Catalog.of_get?_insert found with ⟨_, rfl⟩ | ⟨_, was⟩
      · exact Nat.one_pos
      · exact attended sought state was
  | retain symbol =>
      rcases Catalog.of_get?_modify found with ⟨_, before, _, rfl⟩ | ⟨_, was⟩
      · exact Nat.succ_pos _
      · exact attended sought state was
  | @release symbol shared_state there shared =>
      rcases Catalog.of_get?_modify found with ⟨same, before, was, rfl⟩ | ⟨_, was⟩
      · rw [solver.unknowns.get?_congr same, there] at was
        rw [← Option.some.inj was]
        exact Nat.sub_pos_of_lt shared
      · exact attended sought state was
  | leave symbol => exact attended sought state (Catalog.of_get?_erase found).2
  | create | write => exact attended sought state found

theorem attended_new (identity : Nat) (options : Options) :
    (new identity options : Solver α).Attended :=
  fun _ _ found => absurd found.symm (Option.some_ne_none _)

end Solver

/-- In the course of every history all variables are referred to. -/
theorem Course.Reached.attended {discipline : Discipline} {course : Course Rat}
    (reached : course.Reached discipline) : course.solver.Attended := by
  induction reached with
  | start identity options => exact attended_new identity options
  | @step course command steps _ _ inductionHypothesis =>
      exact (course.solver.changes_perform command steps).keeps
        (fun _ _ change => change.attended) inductionHypothesis

end SoftSimplex
