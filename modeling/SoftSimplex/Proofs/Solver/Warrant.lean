import SoftSimplex.Proofs.Solver.Changes
import SoftSimplex.Proofs.Solver.Journal

/-!
# Warrants

Most of what a command does leaves the tableau alone. A warrant is a condition on solvers under
which a claim is true of the turns of the few parts that do not, and which every part keeps, silent
ones included. From a warrant it follows that the claim is true of the turns of all commands. The
exceptions are a suggestion, since nothing is known about the constraint that an edit has been
given, and the last turn of a reset.
-/

namespace SoftSimplex

variable {α : Type} [Scalar α] {kept : Solver α → Prop}
  {claim : Tableau α → List (Turn α) → Tableau α → Prop} {solver : Solver α}

namespace Action

open Solver

variable {ρ τ : Type} {action other : Action α ρ}

/-- However the action ends, unless it pauses, the condition is kept. -/
def Sustains (kept : Solver α → Prop) (action : Action α ρ) : Prop :=
  ∀ solver, kept solver →
    action.Meets solver (fun _ => kept) (fun _ => kept) fun _ => True

namespace Journal

variable {journal : Journal action} {answered : ρ → Solver α → Prop}
  {refused : Refusal → Solver α → Prop}

/-- The claim is true of the turns, and the action meets conditions unless it pauses. -/
def Delivers (claim : Tableau α → List (Turn α) → Tableau α → Prop)
    (journal : Journal action) (solver : Solver α)
    (answered : ρ → Solver α → Prop) (refused : Refusal → Solver α → Prop) : Prop :=
  journal.Ensures claim solver ∧ action.Meets solver answered refused fun _ => True

namespace Delivers

theorem mono (delivers : journal.Delivers claim solver answered refused)
    {answered' : ρ → Solver α → Prop} {refused' : Refusal → Solver α → Prop}
    (answers : ∀ result after, answered result after → answered' result after)
    (refusals : ∀ reason after, refused reason after → refused' reason after) :
    journal.Delivers claim solver answered' refused' :=
  ⟨delivers.1, delivers.2.mono answers refusals fun _ => id⟩

theorem reading {following : Solver α → Action α ρ} {second : ∀ solver, Journal (following solver)}
    (delivers : (second solver).Delivers claim solver answered refused) :
    (Journal.reading second).Delivers claim solver answered refused :=
  ⟨Ensures.reading delivers.1, Meets.read_bind delivers.2⟩

theorem branch {condition : Prop} [Decidable condition] {yes : Journal action}
    {no : Journal other} (holds : condition → yes.Delivers claim solver answered refused)
    (fails : ¬ condition → no.Delivers claim solver answered refused) :
    (Journal.branch yes no : Journal (if condition then action else other)).Delivers claim
      solver answered refused := by
  refine ⟨.branch (fun decided => (holds decided).1) fun decided => (fails decided).1, ?_⟩
  split
  · rename_i decided
    exact (holds decided).2
  · rename_i decided
    exact (fails decided).2

variable [Turn.Composes claim]

theorem silent {still : Still action} (meets : action.Meets solver answered refused fun _ => True) :
    (Journal.silent still).Delivers claim solver answered refused :=
  ⟨Ensures.silent, meets⟩

theorem bind {first : Journal action} {following : ρ → Action α τ}
    {second : ∀ result, Journal (following result)} {answered' : τ → Solver α → Prop}
    (here : first.Delivers claim solver answered refused)
    (there : ∀ result after, answered result after →
      (second result).Delivers claim after answered' refused) :
    (first.bind second).Delivers claim solver answered' refused :=
  ⟨here.1.bind here.2 fun result after holds => (there result after holds).1,
    Meets.bind here.2 fun result after holds => (there result after holds).2⟩

/-- A silent action comes before. -/
theorem after {first : Action α ρ} {still : Still first} {following : ρ → Action α τ}
    {second : ∀ result, Journal (following result)} {answered' : τ → Solver α → Prop}
    (meets : first.Meets solver answered refused fun _ => True)
    (there : ∀ result after, answered result after →
      (second result).Delivers claim after answered' refused) :
    (Journal.after still second).Delivers claim solver answered' refused :=
  bind (silent meets) there

/-- An update of the solver comes before. -/
theorem after_update {change : Solver α → Solver α} {still : Still (Action.update change)}
    {following : Unit → Action α ρ} {second : ∀ result, Journal (following result)}
    (delivers : (second ()).Delivers claim (change solver) answered refused) :
    (Journal.after still second).Delivers claim solver answered refused :=
  ⟨Ensures.after_update delivers.1, Meets.update_bind delivers.2⟩

theorem after_demand {demanded : Except Refusal ρ} {still : Still (Action.demand demanded)}
    {following : ρ → Action α τ} {second : ∀ result, Journal (following result)}
    {answered' : τ → Solver α → Prop}
    (accepted : ∀ value, demanded = .ok value →
      (second value).Delivers claim solver answered' refused)
    (declined : ∀ reason, refused reason solver) :
    (Journal.after still second).Delivers claim solver answered' refused :=
  ⟨Ensures.after_demand fun value given => (accepted value given).1,
    Meets.demand_bind (fun value given => (accepted value given).2) fun reason _ => declined reason⟩

/-- A silent action comes afterwards. -/
theorem before {first : Journal action} {following : ρ → Action α τ}
    {still : ∀ result, Still (following result)} {answered' : τ → Solver α → Prop}
    (here : first.Delivers claim solver answered refused)
    (meets : ∀ result after, answered result after →
      (following result).Meets after answered' refused fun _ => True) :
    (first.before still).Delivers claim solver answered' refused :=
  ⟨Ensures.before here.1, Meets.bind here.2 meets⟩

end Delivers

/-! ## Conditions that are kept throughout -/

/-- Wherever the condition holds, the claim is true of the turns and the condition is kept. -/
def Upholds (kept : Solver α → Prop) (claim : Tableau α → List (Turn α) → Tableau α → Prop)
    (journal : Journal action) : Prop :=
  ∀ solver, kept solver → journal.Delivers claim solver (fun _ => kept) fun _ => kept

namespace Upholds

theorem attempt (upholds : journal.Upholds kept claim) : journal.attempt.Upholds kept claim := by
  intro solver holds
  refine ⟨.attempt (upholds solver holds).1, (Meets.attempt (upholds solver holds).2).weaken ?_⟩
  intro result after
  cases result <;> exact id

variable [Turn.Composes claim]

theorem silent {still : Still action} (sustains : action.Sustains kept) :
    (Journal.silent still).Upholds kept claim :=
  fun solver holds => .silent (sustains solver holds)

theorem pure {result : ρ} {still : Still (Pure.pure result : Action α ρ)} :
    (Journal.silent still).Upholds kept claim :=
  silent fun _ holds => Meets.pure holds

theorem bind {first : Journal action} {following : ρ → Action α τ}
    {second : ∀ result, Journal (following result)} (here : first.Upholds kept claim)
    (there : ∀ result, (second result).Upholds kept claim) :
    (first.bind second).Upholds kept claim :=
  fun solver holds => (here solver holds).bind fun result after => there result after

theorem after {first : Action α ρ} {still : Still first} {following : ρ → Action α τ}
    {second : ∀ result, Journal (following result)} (sustains : first.Sustains kept)
    (there : ∀ result, (second result).Upholds kept claim) :
    (Journal.after still second).Upholds kept claim :=
  bind (silent sustains) there

theorem before {first : Journal action} {following : ρ → Action α τ}
    {still : ∀ result, Still (following result)} (here : first.Upholds kept claim)
    (sustains : ∀ result, (following result).Sustains kept) :
    (first.before still).Upholds kept claim :=
  fun solver holds => (here solver holds).before fun result after => sustains result after

theorem forM {σ : Type} {round : σ → Action α PUnit} {rounds : ∀ item, Journal (round item)}
    (upholds : ∀ item, (rounds item).Upholds kept claim) (items : List σ) :
    (Journal.forM rounds items).Upholds kept claim := by
  induction items with
  | nil => exact pure
  | cons item rest inductionHypothesis => exact bind (upholds item) fun _ => inductionHypothesis

end Upholds

end Journal

end Action

/-! ## What the parts of commands have to keep -/

open SoftSimplex.Action in
/-- Where the condition holds, the claim is true of the turns by which constraints take part, leave
and change their prices. The condition is kept by this, and by all changes of variables and of
constraints that take no part. -/
structure Warrant (kept : Solver α → Prop)
    (claim : Tableau α → List (Turn α) → Tableau α → Prop) : Prop where
  idle : ∀ {solver : Solver α} {key : Symbol} {constraint : Constraint α}, kept solver →
    solver.constraints.get? key = some constraint → constraint.isActive = false →
      constraint.markers = Markers.absent
  recount : ∀ {solver : Solver α} {unknowns : Catalog (Variable α)}, kept solver →
    solver.SameCaches { solver with unknowns } → kept { solver with unknowns }
  create : ∀ {solver : Solver α} (strength : Strength α), kept solver →
    kept { solver with
      lastConstraint := solver.lastConstraint + 1
      constraints := solver.constraints.insert ⟨solver.lastConstraint + 1, .external⟩
        (Constraint.blank strength) }
  write : ∀ {solver : Solver α} {key : Symbol} {change : Constraint α → Constraint α},
    kept solver → solver.constraints.Idle key →
      (∀ constraint, solver.constraints.get? key = some constraint →
        solver.Revises constraint (change constraint)) →
      kept { solver with constraints := solver.constraints.modify key change }
  erase : ∀ {solver : Solver α} {key : Symbol} {constraint : Constraint α}, kept solver →
    solver.constraints.get? key = some constraint → constraint.isActive = false →
      kept { solver with constraints := solver.constraints.erase key }
  refresh : ∀ {solver : Solver α}, kept solver → kept solver.refresh
  activate : ∀ {solver : Solver α} {key : Symbol}, kept solver → solver.constraints.Idle key →
    (Journal.activate key).Delivers claim solver (fun _ => kept) fun _ => kept
  deactivate : ∀ {solver : Solver α} (key : Symbol), kept solver →
    (Journal.deactivate key).Delivers claim solver
      (fun _ after => kept after ∧ after.constraints.Idle key) fun _ => kept
  reprice : ∀ {solver : Solver α} {key : Symbol} {constraint : Constraint α}
    {strength : Strength α}, kept solver → solver.constraints.get? key = some constraint →
      constraint.isActive = true → constraint.strength.isRequired = false →
        strength.isRequired = false →
          (Journal.reprice key constraint strength).Delivers claim solver (fun _ => kept)
            fun _ => kept

namespace Warrant

open SoftSimplex.Action Solver

variable (warrant : Warrant kept claim) {handle : ConstraintHandle}

include warrant

/-- A constraint that takes no part is idle. -/
theorem idle_of_inactive (holds : kept solver) {key : Symbol} {constraint : Constraint α}
    (found : solver.constraints.get? key = some constraint)
    (inactive : constraint.isActive = false) : solver.constraints.Idle key := by
  intro state there
  obtain rfl := Option.some.inj (found.symm.trans there)
  exact warrant.idle holds found inactive

theorem modify_unknown (symbol : Symbol) (change : Variable α → Variable α)
    (spares : ∀ state, (change state).isStale = state.isStale ∧
      (change state).value = state.value) :
    (update fun solver : Solver α =>
      { solver with unknowns := solver.unknowns.modify symbol change }).Sustains kept :=
  fun solver holds =>
    Meets.update (warrant.recount holds (.modify_unknown solver symbol change spares))

theorem dropReference (symbol : Symbol) :
    (Action.dropReference symbol : Action α (Option Symbol)).Sustains kept := by
  intro solver holds
  apply Meets.read_bind
  cases solver.unknowns.get? symbol with
  | none => exact Meets.pure holds
  | some state =>
      dsimp only
      split
      · have counted := warrant.recount holds
          (.modify_unknown solver symbol Variable.released fun _ => ⟨rfl, rfl⟩)
        exact Meets.update_bind (Meets.pure counted)
      · have erased := warrant.recount holds (.erase_unknown solver symbol)
        exact Meets.update_bind (Meets.pure erased)

theorem forgetEdits : (Action.forgetEdits : Action α (List Symbol)).Sustains kept := by
  intro solver holds
  exact Meets.read_bind (Meets.update_bind (Meets.pure
    (warrant.recount holds (.forget_edits solver))))

theorem refreshAll : (Action.refreshAll : Action α Unit).Sustains kept :=
  fun _ holds => Meets.update (warrant.refresh holds)

theorem createConstraint (strength : Strength α) :
    (Action.createConstraint strength).Sustains kept :=
  fun _ holds => Meets.read_bind (Meets.update_bind (Meets.pure
    (warrant.create strength.orRequired holds)))

/-- A constraint that takes no part is replaced by what may be written. -/
theorem replaceConstraint (holds : kept solver) {constraint written : Constraint α}
    (found : solver.constraints.get? handle.key = some constraint)
    (inactive : constraint.isActive = false) (revises : solver.Revises constraint written) :
    (Action.replaceConstraint handle written).Meets solver (fun _ => kept) (fun _ => kept)
      fun _ => True := by
  refine Meets.update (warrant.write holds (warrant.idle_of_inactive holds found inactive) ?_)
  intro state there
  obtain rfl := Option.some.inj (found.symm.trans there)
  exact revises

theorem addConstant (handle : ConstraintHandle) (constant : α) :
    (Action.addConstant handle constant).Sustains kept := by
  intro solver holds
  refine Meets.read_bind (Meets.demand_bind ?_ fun _ _ => holds)
  intro constraint is_constraint
  obtain ⟨_, there, inactive⟩ := of_findInactive is_constraint
  exact warrant.replaceConstraint holds there inactive (.addConstant constant)

theorem setRelation (handle : ConstraintHandle) (relation : Relation) :
    (Action.setRelation handle relation : Action α Unit).Sustains kept := by
  intro solver holds
  refine Meets.read_bind (Meets.demand_bind ?_ fun _ _ => holds)
  intro constraint is_constraint
  obtain ⟨_, there, inactive⟩ := of_findInactive is_constraint
  split
  · exact Meets.refuse holds
  · exact warrant.replaceConstraint holds there inactive (.relate relation)

variable [Turn.Composes claim]

/-- However far a removal spreads, constraints are taken out one by one. -/
theorem removeWithin (depth : Nat) (key : Symbol) :
    (Journal.removeWithin depth key : Journal (Action.removeWithin depth key)).Upholds kept
      claim := by
  induction depth generalizing key with
  | zero => exact .pure
  | succ depth inductionHypothesis =>
      intro solver holds
      apply (warrant.deactivate key holds).bind
      rintro _ between ⟨holds', idle⟩
      apply Journal.Delivers.reading
      cases found : between.constraints.take? key with
      | none => exact .silent (Meets.pure holds')
      | some pair =>
          obtain ⟨constraint, there, rfl⟩ := Option.map_eq_some_iff.mp found
          apply Journal.Delivers.after_update
          apply Journal.Upholds.forM _ _ _ (warrant.erase holds' there (idle.isActive there))
          intro term
          apply Journal.Upholds.after (warrant.dropReference term.1)
          intro edit
          cases edit with
          | none => exact .pure
          | some edit => exact inductionHypothesis edit

theorem removeConstraint (key : Symbol) :
    (Journal.removeConstraint key : Journal (Action.removeConstraint key)).Upholds kept claim :=
  fun solver holds => .reading (warrant.removeWithin solver.constraintCount key solver holds)

theorem releaseVariable (symbol : Symbol) :
    (Journal.releaseVariable symbol : Journal (Action.releaseVariable symbol)).Upholds kept
      claim := by
  apply Journal.Upholds.after (warrant.dropReference symbol)
  intro edit
  cases edit with
  | none => exact .pure
  | some edit => exact warrant.removeConstraint edit

theorem trackTerm (symbol : Symbol) (before after : LinearForm α) :
    (Journal.trackTerm symbol before after).Upholds kept claim := by
  intro solver holds
  have released := warrant.releaseVariable symbol solver holds
  have retained := warrant.modify_unknown symbol Variable.retained (fun _ => ⟨rfl, rfl⟩) solver
    holds
  constructor
  · intro steps
    simp only [Journal.trackTerm, Action.trackTerm]
    cases before.mentions symbol <;> cases after.mentions symbol
    · exact Turn.Composes.still (.refl _)
    · exact Turn.Composes.still (.refl _)
    · exact released.1 steps
    · exact Turn.Composes.still (.refl _)
  · unfold Action.trackTerm
    split
    · exact retained
    · exact released.2
    · exact Meets.pure holds

theorem giveUpVariable (handle : VariableHandle) :
    (Journal.giveUpVariable handle : Journal (Action.giveUpVariable handle)).Upholds kept
      claim := by
  intro solver holds
  apply Journal.Delivers.reading
  apply Journal.Delivers.branch
  · exact fun _ => warrant.releaseVariable handle.symbol solver holds
  · exact fun _ => .silent (Meets.pure holds)

theorem addTerm (handle : ConstraintHandle) (inside : VariableHandle) (coefficient : α) :
    (Journal.addTerm handle inside coefficient).Upholds kept claim := by
  intro solver holds
  apply Journal.Delivers.reading
  apply Journal.Delivers.after_demand _ fun _ => holds
  intro state is_state
  apply Journal.Delivers.reading
  apply Journal.Delivers.after_demand _ fun _ => holds
  intro constraint is_constraint
  obtain ⟨_, there, inactive⟩ := of_findInactive is_constraint
  apply Journal.Delivers.after
    (warrant.replaceConstraint holds there inactive (.addTerm is_state coefficient))
  exact fun _ => warrant.trackTerm _ _ _

theorem mergeConstraint (handle source : ConstraintHandle) (factor : α) :
    (Journal.mergeConstraint handle source factor).Upholds kept claim := by
  intro solver holds
  apply Journal.Delivers.reading
  apply Journal.Delivers.after_demand _ fun _ => holds
  intro added is_added
  apply Journal.Delivers.reading
  apply Journal.Delivers.after_demand _ fun _ => holds
  intro constraint is_constraint
  obtain ⟨_, there, inactive⟩ := of_findInactive is_constraint
  apply Journal.Delivers.after (warrant.replaceConstraint holds there inactive
    (.addForm (of_findConstraint is_added).2 factor))
  exact fun _ => Journal.Upholds.forM (fun term => warrant.trackTerm _ _ _) _

/-- What is copied last is of no account here, because nothing follows. -/
theorem ensures_copyConstraint (source : ConstraintHandle) (strength : Strength α)
    (holds : kept solver) : (Journal.copyConstraint source strength).Ensures claim solver := by
  apply Journal.Ensures.reading
  apply Journal.Ensures.after_demand
  intro copied _
  refine Journal.Ensures.after (warrant.createConstraint _ solver holds) ?_
  intro handle created holds'
  exact Journal.Ensures.before (warrant.mergeConstraint handle source 1 created holds').1

theorem addConstraint (handle : ConstraintHandle) :
    (Journal.addConstraint handle : Journal (Action.addConstraint handle)).Upholds kept claim := by
  intro solver holds
  apply Journal.Delivers.reading
  apply Journal.Delivers.after_demand _ fun _ => holds
  intro constraint is_constraint
  apply Journal.Delivers.branch
  · exact fun _ => .silent (Meets.refuse holds)
  · intro inactive
    exact warrant.activate holds (warrant.idle_of_inactive holds (of_findConstraint is_constraint).2
      (by simpa using inactive))

theorem withdrawConstraint (handle : ConstraintHandle) :
    (Journal.withdrawConstraint handle : Journal (Action.withdrawConstraint handle)).Upholds kept
      claim := by
  intro solver holds
  apply Journal.Delivers.reading
  cases solver.findConstraint handle with
  | ok _ => exact (warrant.deactivate handle.key holds).mono (fun _ _ => And.left) fun _ _ => id
  | error _ => exact .silent (Meets.pure holds)

theorem eraseConstraint (handle : ConstraintHandle) :
    (Journal.eraseConstraint handle : Journal (Action.eraseConstraint handle)).Upholds kept
      claim := by
  intro solver holds
  apply Journal.Delivers.reading
  cases solver.findConstraint handle with
  | error _ => exact .silent (Meets.pure holds)
  | ok _ =>
      apply (warrant.deactivate handle.key holds).bind
      rintro _ between ⟨holds', idle⟩
      apply Journal.Delivers.reading
      cases found : between.constraints.get? handle.key with
      | none => exact .silent (Meets.pure holds')
      | some constraint =>
          apply Journal.Delivers.after
            (warrant.replaceConstraint holds' found (idle.isActive found) .erase)
          exact fun _ => Journal.Upholds.forM (fun term => warrant.releaseVariable term.1) _

theorem discardConstraint (handle : ConstraintHandle) :
    (Journal.discardConstraint handle : Journal (Action.discardConstraint handle)).Upholds kept
      claim := by
  intro solver holds
  apply Journal.Delivers.reading
  cases solver.findConstraint handle with
  | ok _ => exact warrant.removeConstraint handle.key solver holds
  | error _ => exact .silent (Meets.pure holds)

/-- A constraint that takes no part gets another strength and takes part. -/
theorem reactivate (holds : kept solver) {key : Symbol} (idle : solver.constraints.Idle key)
    (strength : Strength α) {still : Still (update fun solver : Solver α =>
      { solver with constraints := solver.constraints.modify key fun state =>
        { state with strength } })} :
    (Journal.after still fun _ => Journal.activate key).Delivers claim solver (fun _ => kept)
      fun _ => kept := by
  apply Journal.Delivers.after_update
  apply warrant.activate (warrant.write holds idle fun _ _ => .strengthen strength)
  intro constraint found
  rcases Catalog.of_get?_modify found with ⟨same, before, was, rfl⟩ | ⟨apart, _⟩
  · exact idle before was
  · exact absurd rfl apart

theorem changeStrength (key : Symbol) (strength : Strength α) :
    (Journal.changeStrength key strength).Upholds kept claim := by
  intro solver holds
  apply Journal.Delivers.reading
  cases found : solver.constraints.get? key with
  | none => exact .silent (Meets.refuse holds)
  | some constraint =>
      have idle : ¬ constraint.isActive = true → solver.constraints.Idle key := fun inactive =>
        warrant.idle_of_inactive holds found (by simpa using inactive)
      apply Journal.Delivers.branch
      · exact fun _ => .silent (Meets.pure holds)
      · intro _
        apply Journal.Delivers.branch
        · intro _
          apply Journal.Delivers.branch
          · intro _
            apply (warrant.deactivate key holds).bind
            exact fun _ between both => warrant.reactivate both.1 both.2 strength
          · exact fun inactive => warrant.reactivate holds (idle inactive) strength
        · intro soft
          rw [Bool.not_eq_true, Bool.or_eq_false_iff] at soft
          apply Journal.Delivers.branch
          · exact fun active => warrant.reprice holds found active soft.1 soft.2
          · intro inactive
            apply Journal.Delivers.silent
            exact Meets.update (warrant.write holds (idle inactive) fun _ _ =>
              .strengthen strength)

theorem setStrength (handle : ConstraintHandle) (strength : Strength α) :
    (Journal.setStrength handle strength).Upholds kept claim := by
  intro solver holds
  apply Journal.Delivers.reading
  apply Journal.Delivers.after_demand _ fun _ => holds
  exact fun _ _ => warrant.changeStrength handle.key strength.orRequired solver holds

theorem beginEdit (handle : VariableHandle) (strength : Strength α) :
    (Journal.beginEdit handle strength).Upholds kept claim := by
  intro solver holds
  apply Journal.Delivers.reading
  apply Journal.Delivers.after_demand _ fun _ => holds
  intro found _
  cases found.edit with
  | some key => exact warrant.changeStrength key _ solver holds
  | none =>
      apply Journal.Upholds.after (warrant.createConstraint _) _ solver holds
      intro hidden
      apply Journal.Upholds.after (warrant.setRelation hidden .equal)
      intro _
      apply Journal.Upholds.bind (warrant.addTerm hidden handle 1)
      intro _
      apply Journal.Upholds.after (warrant.addConstant hidden _)
      intro _
      apply Journal.Upholds.bind (warrant.addConstraint hidden).attempt
      intro added
      cases added with
      | error reason =>
          apply (warrant.removeConstraint hidden.key).before
          exact fun _ _ holds => Meets.refuse holds
      | ok _ => exact .silent (warrant.modify_unknown handle.symbol _ fun _ => ⟨rfl, rfl⟩)

theorem endEdit (handle : VariableHandle) :
    (Journal.endEdit handle : Journal (Action.endEdit handle)).Upholds kept claim := by
  intro solver holds
  apply Journal.Delivers.reading
  cases solver.findVariable handle with
  | error _ => exact .silent (Meets.pure holds)
  | ok found =>
      obtain ⟨_, _, edit, _, _⟩ := found
      cases edit with
      | none => exact .silent (Meets.pure holds)
      | some key =>
          apply Journal.Upholds.after _ (fun _ => warrant.removeConstraint key) solver holds
          exact warrant.modify_unknown handle.symbol _ fun _ => ⟨rfl, rfl⟩

/-- Emptying the tableau comes last, so what becomes of the condition is of no account. -/
theorem ensures_reset (dropConstraints : Bool) (holds : kept solver)
    (clears : dropConstraints = true → ∀ solver : Solver α, kept solver →
      claim solver.tableau [⟨.clearing, .clear, solver.tableau⟩]
        (Change.clear.run solver.tableau)) :
    (Journal.reset dropConstraints : Journal (Action.reset dropConstraints)).Ensures claim
      solver := by
  have ends : ∀ edits : List Symbol, ∀ solver, kept solver →
      ((Journal.forM Journal.removeConstraint edits).bind fun _ =>
        Journal.after still_refreshAll fun _ =>
          Journal.branch Journal.emptyTableau (Journal.silent (.pure ())) : Journal (do
            edits.forM Action.removeConstraint
            Action.refreshAll
            if dropConstraints = true then emptyTableau else pure ())).Ensures claim solver := by
    intro edits solver holds
    have removed := Journal.Upholds.forM warrant.removeConstraint edits solver holds
    apply removed.1.bind removed.2
    intro _ between holds'
    refine Journal.Ensures.after (warrant.refreshAll between holds') ?_
    intro _ refreshed holds''
    apply Journal.Ensures.branch
    · exact fun drops => Journal.Ensures.update (clears drops refreshed holds'')
    · exact fun _ => .silent
  have forgets : ∀ solver, kept solver → (Journal.after still_forgetEdits fun edits =>
      (Journal.forM Journal.removeConstraint edits).bind fun _ =>
        Journal.after still_refreshAll fun _ =>
          Journal.branch Journal.emptyTableau (Journal.silent (.pure ())) : Journal (do
            let edits ← Action.forgetEdits
            edits.forM Action.removeConstraint
            Action.refreshAll
            if dropConstraints = true then emptyTableau else pure ())).Ensures claim solver :=
    fun solver holds => Journal.Ensures.after (warrant.forgetEdits solver holds) ends
  apply Journal.Ensures.reading
  apply Journal.Ensures.branch
  · exact fun _ => Journal.Ensures.after (warrant.refreshAll solver holds) fun _ => forgets
  · exact fun _ => forgets solver holds

omit warrant in
/-- A suggestion begins an edit unless there is one, and moves the target. -/
theorem ensures_suggest {handle : VariableHandle} {target : α} {edited : Solver α → Prop}
    (holds : edited solver)
    (begins : (Journal.beginEdit handle Strength.medium).Ensures claim solver)
    (keeps : (Action.beginEdit handle Strength.medium).Meets solver (fun _ => edited)
      (fun _ => edited) fun _ => True)
    (moves : ∀ {solver : Solver α} {symbol key : Symbol} {state : Variable α}, edited solver →
      solver.unknowns.get? symbol = some state → state.edit = some key →
        (Journal.moveTarget symbol key state.target target).Ensures claim solver) :
    (Journal.suggest handle target).Ensures claim solver := by
  have moves_begun : ∀ (begun : Except Refusal Unit) (solver : Solver α), edited solver →
      (Journal.moveIfBegun handle.symbol target begun).Ensures claim solver := by
    intro begun solver holds
    apply Journal.Ensures.reading
    rcases begun with _ | _
    · exact .silent
    · cases found : solver.unknowns.get? handle.symbol with
      | none => exact .silent
      | some state =>
          obtain ⟨_, _, edit, previous, _⟩ := state
          cases edit with
          | none => exact .silent
          | some key =>
              have moved := moves holds found rfl
              exact moved
  apply Journal.Ensures.reading
  cases solver.findVariable handle with
  | error _ => exact .silent
  | ok found =>
      apply Journal.Ensures.branch
      · intro _
        have begun : (pure (.ok ()) : Action α (Except Refusal Unit)).Meets solver
            (fun _ => edited) (fun _ _ => False) fun _ => False := Meets.pure holds
        exact Journal.Ensures.after begun moves_begun
      · intro _
        have attempts : (Action.attempt (Action.beginEdit handle Strength.medium)).Meets solver
            (fun _ => edited) (fun _ _ => False) fun _ => True := by
          apply (Meets.attempt keeps).weaken
          intro result after
          cases result <;> exact id
        exact begins.attempt.bind attempts moves_begun

omit warrant in
theorem ensures_finish {action : Action α Unit} {journal : Journal action}
    (ensures : journal.Ensures claim solver) : (Journal.finish journal).Ensures claim solver :=
  ensures.before

/-- The claim is true of the turns of a command, if it is true of those of a suggestion and of
emptying the tableau. -/
theorem ensures_command (holds : kept solver) (asked : Command α)
    (clears : asked = .reset true → ∀ solver : Solver α, kept solver →
      claim solver.tableau [⟨.clearing, .clear, solver.tableau⟩] (Change.clear.run solver.tableau))
    (suggests : ∀ handle target, asked = .suggest handle target →
      (Journal.suggest handle target).Ensures claim solver) :
    (Journal.command asked).Ensures claim solver := by
  cases asked with
  | createVariable => exact .map .silent
  | shareVariable handle => exact ensures_finish .silent
  | giveUpVariable handle => exact ensures_finish (warrant.giveUpVariable handle solver holds).1
  | createConstraint strength => exact .map .silent
  | copyConstraint source strength =>
      exact .map (warrant.ensures_copyConstraint source strength holds)
  | mergeConstraint handle source factor =>
      exact ensures_finish (warrant.mergeConstraint handle source factor solver holds).1
  | addTerm handle inside coefficient =>
      exact ensures_finish (warrant.addTerm handle inside coefficient solver holds).1
  | addConstant handle constant => exact ensures_finish .silent
  | setRelation handle relation => exact ensures_finish .silent
  | setStrength handle strength =>
      exact ensures_finish (warrant.setStrength handle strength solver holds).1
  | addConstraint handle => exact ensures_finish (warrant.addConstraint handle solver holds).1
  | withdrawConstraint handle =>
      exact ensures_finish (warrant.withdrawConstraint handle solver holds).1
  | eraseConstraint handle => exact ensures_finish (warrant.eraseConstraint handle solver holds).1
  | discardConstraint handle =>
      exact ensures_finish (warrant.discardConstraint handle solver holds).1
  | beginEdit handle strength =>
      exact ensures_finish (warrant.beginEdit handle strength solver holds).1
  | suggest handle target => exact ensures_finish (suggests handle target rfl)
  | endEdit handle => exact ensures_finish (warrant.endEdit handle solver holds).1
  | refresh => exact ensures_finish .silent
  | reset dropConstraints =>
      exact ensures_finish (warrant.ensures_reset dropConstraints holds fun drops =>
        clears (congrArg Command.reset drops))
  | setAutoUpdate autoUpdate => exact ensures_finish .silent

end Warrant

end SoftSimplex
