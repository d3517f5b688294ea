import SoftSimplex.Proofs.Solver.Anchors
import SoftSimplex.Proofs.Solver.Tolerance

/-!
# Acceptance

A constraint that may be missed is never rejected. The two symbols that are drawn for it occur
nowhere in the tableau, so they come into its row with the coefficients one and minus one, whatever
rows have been put in for its variables and whether or not the row has been turned. One of the two
is restricted and falls, and is made basic at once.

So a strength that is not required can always be taken on, an edit can always begin, and a
suggestion always reaches its variable. For an edit that has begun before, its hidden constraint has
to be there still.
-/

namespace SoftSimplex

variable {α : Type} [Scalar α] {kinds : Nat → Symbol.Kind} {solver : Solver α} {key symbol : Symbol}
  {constraint : Constraint α} {handle : VariableHandle}

namespace Action

open Solver

section Dependable

variable (dependable : Scalar.Dependable α)

include dependable

theorem accepts_activate (accounted : solver.Accounted kinds)
    (idle : solver.constraints.Idle key) (found : solver.constraints.get? key = some constraint)
    (soft : constraint.strength.isRequired = false) :
    (activate key).Meets solver (fun _ _ => True) (fun _ _ => False) InOrder := by
  apply (meets_activate dependable.lowered_counts accounted idle).mono fun _ _ _ => trivial
  · intro _ after declined
    have required := declined.isRequired dependable ⟨kinds, accounted⟩ found
    rw [soft] at required
    exact Bool.noConfusion required
  · exact fun _ => id

theorem accepts_addConstraint {handle : ConstraintHandle} (accountable : solver.Accountable)
    (found : solver.findConstraint handle = .ok constraint)
    (inactive : constraint.isActive = false) (soft : constraint.strength.isRequired = false) :
    (addConstraint handle).Meets solver (fun _ _ => True) (fun _ _ => False) InOrder := by
  obtain ⟨kinds, accounted⟩ := accountable
  have there := (of_findConstraint found).2
  refine Meets.read_bind (Meets.granted_bind found ?_)
  rw [if_neg (by simp [inactive])]
  apply accepts_activate dependable accounted _ there soft
  intro state found'
  obtain rfl := Option.some.inj (there.symm.trans found')
  exact (accounted.filed.placed _ constraint there).absent inactive

/-- A constraint that takes on a strength that is not required may take part with it. -/
theorem accepts_reactivate {strength : Strength α} (accounted : solver.Accounted kinds)
    (idle : solver.constraints.Idle key) (registered : solver.constraints.get? key ≠ none)
    (soft : strength.isRequired = false) :
    (do
      update fun solver => { solver with constraints := solver.constraints.modify key fun state =>
        { state with strength } }
      activate key : Action α Unit).Meets solver (fun _ _ => True) (fun _ _ => False) InOrder := by
  obtain ⟨constraint, found⟩ := Option.ne_none_iff_exists'.mp registered
  have assigned := rewritten_modify accounted idle (fun state => { state with strength })
    fun _ => ⟨rfl, rfl⟩
  have there : (solver.constraints.modify key fun state => { state with strength }).get? key =
      some { constraint with strength } := by
    rw [Catalog.get?_modify, if_pos rfl, found]
    rfl
  apply Meets.update_bind
  exact accepts_activate dependable assigned.toAccounted assigned.idle there soft

theorem accepts_changeStrength {strength : Strength α} (accounted : solver.Accounted kinds)
    (found : solver.constraints.get? key = some constraint) (soft : strength.isRequired = false) :
    (changeStrength key strength).Meets solver (fun _ _ => True) (fun _ _ => False) InOrder := by
  cases required : constraint.strength.isRequired with
  | false =>
      exact (meets_reprice accounted found required soft).weaken fun _ _ _ => trivial
  | true =>
      apply Meets.read_bind
      simp only [found, required, Bool.true_or, if_true]
      split
      · exact Meets.pure trivial
      · split
        · apply Meets.bind (meets_deactivate accounted)
          intro _ between detached
          apply accepts_reactivate dependable detached.toAccounted detached.idle _ soft
          obtain ⟨now, there⟩ := detached.toRemarked.holdsOn.registered key constraint found
          rw [there]
          exact Option.some_ne_none now
        · rename_i inactive
          apply accepts_reactivate dependable accounted _ _ soft
          · intro state there
            obtain rfl := Option.some.inj (found.symm.trans there)
            exact (accounted.filed.placed key constraint found).absent (by simpa using inactive)
          · rw [found]
            exact Option.some_ne_none constraint

variable {apart : Nat → Prop} (accountable : solver.Accountable)
  (anchored : solver.Anchored apart) {state : Variable α}
  (found : solver.findVariable handle = .ok state)

include accountable found

theorem accepts_beginEdit (anchored : solver.Anchored apart) (strength : Strength α) :
    (beginEdit handle strength).Meets solver (fun _ _ => True) (fun _ _ => False) InOrder := by
  cases edited : state.edit with
  | none =>
      exact (meets_beginEdit dependable accountable found edited strength).weaken
        fun _ _ _ => trivial
  | some key =>
      obtain ⟨kinds, accounted⟩ := accountable
      obtain ⟨_, hidden, there⟩ := anchored.held handle.symbol key
        ⟨state, (of_findVariable found).2, edited⟩
      refine Meets.read_bind (Meets.granted_bind found ?_)
      simp only [edited]
      exact accepts_changeStrength dependable accounted there
        (dependable.capped_not_required strength.orRequired)

omit dependable accountable found in
/-- A target that is moved reaches its variable, which stays edited. -/
theorem reaches_moveIfBegun (accountable : solver.Accountable)
    (owned : handle.owner = solver.identity) (pulled : solver.PulledBy handle.symbol key)
    (target : α) {refused : Refusal → Solver α → Prop} :
    (moveIfBegun handle.symbol target (.ok ())).Meets solver
      (fun _ after => after.isEdited handle = true ∧ after.targetOf handle = target)
      refused InOrder := by
  obtain ⟨kinds, accounted⟩ := accountable
  obtain ⟨state, there, edited⟩ := pulled
  apply Meets.read_bind
  simp only [there, edited]
  apply (meets_moveTarget accounted handle.symbol key state.target target).weaken
  rintro _ after ⟨_, reworked⟩
  have outline := reworked.outline handle.symbol
  dsimp only at outline
  rw [Catalog.get?_modify, if_pos rfl, there] at outline
  obtain ⟨now, there', same⟩ := Option.map_eq_some_iff.mp outline
  obtain ⟨_, still, aimed⟩ : now.references = state.references ∧ now.edit = state.edit ∧
      now.target = target := by
    simpa [Variable.outline] using same
  have found := findVariable_of_get? (owned.trans reworked.identity.symm) there'
  simp only [isEdited, targetOf, found, still, edited, aimed, Option.isSome_some, and_self]

theorem reaches_suggest (target : α) :
    (suggest handle target).Meets solver
      (fun _ after => after.isEdited handle = true ∧ after.targetOf handle = target)
      (fun _ _ => False) InOrder := by
  obtain ⟨owned, there⟩ := of_findVariable found
  apply Meets.read_bind
  simp only [found]
  cases edited : state.edit with
  | some key =>
      exact reaches_moveIfBegun accountable owned ⟨state, there, edited⟩ target
  | none =>
      apply Meets.bind (Meets.attempt
        (meets_beginEdit dependable accountable found edited Strength.medium))
      intro begun between
      cases begun with
      | error _ => exact False.elim
      | ok _ =>
          rintro ⟨kept, begun⟩
          exact reaches_moveIfBegun kept.accountable (owned.trans begun.identity.symm)
            ((begun.pulledBy_same ⟨state, there⟩ rfl _).mpr rfl) target

end Dependable

end Action

namespace Solver

/-- Whatever may be missed is accepted: for the row of a constraint a subject is found at once,
strengths that are not required are taken on, edits begin, and suggestions reach their variables. -/
structure Receptive (solver : Solver α) : Prop where
  subject : ∀ handle constraint, solver.findConstraint handle = .ok constraint →
    constraint.isActive = false → constraint.strength.isRequired = false → ∃ subject,
      (solver.tableau.rowFor constraint.expression (solver.marking constraint).markers).subject?
        [(solver.marking constraint).markers.marker, (solver.marking constraint).markers.other] =
          some subject
  addConstraint : ∀ handle constraint steps reason, solver.findConstraint handle = .ok constraint →
    constraint.isActive = false → constraint.strength.isRequired = false →
      (solver.perform (.addConstraint handle) steps).1 ≠ .refused reason
  setStrength : ∀ handle constraint (strength : Strength α) steps reason,
    solver.findConstraint handle = .ok constraint → strength.orRequired.isRequired = false →
      (solver.perform (.setStrength handle strength) steps).1 ≠ .refused reason
  beginEdit : ∀ handle state (strength : Strength α) steps reason,
    solver.findVariable handle = .ok state →
      (solver.perform (.beginEdit handle strength) steps).1 ≠ .refused reason
  suggest : ∀ handle state target steps, solver.findVariable handle = .ok state →
    match solver.perform (.suggest handle target) steps with
    | (.answered _, after) => after.isEdited handle = true ∧ after.targetOf handle = target
    | (.refused _, _) => False
    | (.paused, _) => True

/-- What an action that is never refused does not end with. -/
theorem perform_ne_refused {command : Command α} {answered : Reply → Solver α → Prop}
    {paused : Solver α → Prop}
    (meets : command.action.Meets solver answered (fun _ _ => False) paused) (steps : Nat)
    (reason : Refusal) : (solver.perform command steps).1 ≠ .refused reason := by
  intro refused
  have here := perform_meets meets steps
  rw [refused] at here
  exact here

theorem Anchored.receptive {apart : Nat → Prop} (dependable : Scalar.Dependable α)
    (accountable : solver.Accountable) (anchored : solver.Anchored apart) :
    solver.Receptive where
  subject handle constraint found _ soft := by
    rw [← Option.ne_none_iff_exists']
    exact accountable.subject?_ne_none dependable (of_findConstraint found).2 soft
  addConstraint handle constraint steps reason found inactive soft := by
    have meets : (Command.addConstraint handle).action.Meets solver (fun _ _ => True) _ _ :=
      Command.meets_finish
        (Action.accepts_addConstraint dependable accountable found inactive soft)
    exact perform_ne_refused meets steps reason
  setStrength handle constraint strength steps reason found soft := by
    obtain ⟨kinds, accounted⟩ := accountable
    have meets : (Command.setStrength handle strength).action.Meets solver (fun _ _ => True) _ _ :=
      Command.meets_finish (Action.Meets.read_bind (Action.Meets.granted_bind found
        (Action.accepts_changeStrength dependable accounted (of_findConstraint found).2 soft)))
    exact perform_ne_refused meets steps reason
  beginEdit handle state strength steps reason found := by
    have meets : (Command.beginEdit handle strength).action.Meets solver (fun _ _ => True) _ _ :=
      Command.meets_finish
        (Action.accepts_beginEdit dependable accountable found anchored strength)
    exact perform_ne_refused meets steps reason
  suggest handle state target steps found := by
    have meets : (Command.suggest handle target).action.Meets solver
        (fun _ after => after.isEdited handle = true ∧ after.targetOf handle = target) _ _ :=
      Command.meets_finish (Action.reaches_suggest dependable accountable found target)
    have here := perform_meets meets steps
    revert here
    rcases solver.perform (.suggest handle target) steps with ⟨_ | _ | _, after⟩
    · exact id
    · exact id
    · exact fun _ => trivial

end Solver

/-- In every history without forged handles nothing that may be missed is rejected. -/
theorem soft_never_rejected (dependable : Scalar.Dependable α) {course : Course α}
    (arises : course.Arises Course.Honest) : course.solver.Receptive := by
  obtain ⟨accountable, anchored⟩ := arises.anchored dependable
  exact anchored.receptive dependable accountable

instance (course : Course Rat) (command : Command Rat) (steps : Nat) :
    Decidable (@Course.Honest Rat Rational.tolerant course command steps) :=
  decidable_of_iff
    ((∀ handle ∈ command.named, handle.owner = course.solver.identity →
      handle.id ∈ course.issued) ∧
      (course.solver.performTolerant command steps).1.isFinal = true) Iff.rfl

/-- A variable is suggested a value beyond a required bound. A constraint is written for it, and is
given no relation. -/
def overreaching : List (Command Rat) :=
  .createVariable :: (Command.written 1 1000000000 [(1, 1)] .atMost 10 ++
    [.createConstraint ⟨1⟩, .addTerm ⟨2, 0⟩ ⟨1, 0⟩ (-3), .addConstant ⟨2, 0⟩ 90,
      .suggest ⟨1, 0⟩ 60])

/-- The constraint without a relation is accepted, and the edit takes on another strength. -/
theorem soft_never_rejected_overreaching :
    @Solver.Receptive Rat Rational.tolerant (afterTolerant overreaching).solver ∧
      ((afterTolerant overreaching).solver.performTolerant (.addConstraint ⟨2, 0⟩) 20).1 =
        .answered .done ∧
      ((afterTolerant overreaching).solver.performTolerant (.beginEdit ⟨1, 0⟩ ⟨7⟩) 20).1 =
        .answered .done :=
  ⟨@soft_never_rejected Rat Rational.tolerant Rational.dependable_tolerant _
    (arises_afterTolerant (by decide +kernel)), by decide +kernel, by decide +kernel⟩

end SoftSimplex
