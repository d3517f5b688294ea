import SoftSimplex.Proofs.Solver.Course
import SoftSimplex.Proofs.Solver.Resetting

/-!
# Histories

Callers name no constraints of a solver but those that it has handed out. Every course that starts
with a new solver and goes on with commands that come to an end is in good standing. A discipline
may ask more of the commands: that no strength is negative, and that no live required equality is
taken out.
-/

namespace SoftSimplex

namespace Solver

/-- The handle names a live required equality. -/
def isFirm (solver : Solver Rat) (handle : ConstraintHandle) : Bool :=
  match solver.findConstraint handle with
  | .ok found =>
      found.isActive && decide (found.relation = some .equal) && found.strength.isRequired
  | .error _ => false

theorem findConstraint_of_get? {solver : Solver Rat} {handle : ConstraintHandle}
    {constraint : Constraint Rat} (owned : handle.owner = solver.identity)
    (found : solver.constraints.get? handle.key = some constraint) :
    solver.findConstraint handle = .ok constraint := by
  simp only [findConstraint, owned, if_true, found]

theorem isFirm_eq_true {solver : Solver Rat} {handle : ConstraintHandle}
    (owned : handle.owner = solver.identity) (firm : solver.IsFirm handle.key) :
    solver.isFirm handle = true := by
  obtain ⟨constraint, found, active, relation, required⟩ := firm
  simp [isFirm, findConstraint_of_get? owned found, active, relation, required]

end Solver

namespace Command

/-- The command takes a live required equality out of the tableau. Between two required strengths
a constraint is taken out and put in again. -/
def takesOut (solver : Solver Rat) : Command Rat → Bool
  | withdrawConstraint handle | eraseConstraint handle | discardConstraint handle =>
      solver.isFirm handle
  | setStrength handle strength =>
      solver.isFirm handle && solver.strengthOf? handle != some strength.orRequired
  | _ => false

end Command

namespace Course

/-- The command keeps to the discipline, names own constraints only if they were handed out, and
comes to an end. -/
structure Allows (discipline : Discipline) (course : Course Rat) (command : Command Rat)
    (steps : Nat) : Prop where
  own : ∀ handle ∈ command.named, handle.owner = course.solver.identity →
    handle.id ∈ course.issued
  priced : discipline.priced → ∀ strength ∈ command.stated, 0 ≤ strength.weight
  steady : discipline.steady → command.takesOut course.solver = false
  final : (course.solver.perform command steps).1.isFinal = true

instance (discipline : Discipline) (course : Course Rat) (command : Command Rat) (steps : Nat) :
    Decidable (course.Allows discipline command steps) :=
  decidable_of_iff
    ((∀ handle ∈ command.named, handle.owner = course.solver.identity →
      handle.id ∈ course.issued) ∧
    (discipline.priced → ∀ strength ∈ command.stated, 0 ≤ strength.weight) ∧
    (discipline.steady → command.takesOut course.solver = false) ∧
    (course.solver.perform command steps).1.isFinal = true)
    ⟨fun all => ⟨all.1, all.2.1, all.2.2.1, all.2.2.2⟩,
      fun allows => ⟨allows.own, allows.priced, allows.steady, allows.final⟩⟩

/-- The course of some history that keeps to the discipline. -/
abbrev Reached (discipline : Discipline) (course : Course Rat) : Prop :=
  course.Arises (Allows discipline)

end Course

/-- Commands that create a required constraint on the first variable of the first solver, and
add it. -/
def Command.bound (id : Nat) (relation : Relation) (number : Rat) : List (Command Rat) :=
  [createConstraint .required, addTerm ⟨id, 0⟩ ⟨1, 0⟩ 1, setRelation ⟨id, 0⟩ relation,
    addConstant ⟨id, 0⟩ number, addConstraint ⟨id, 0⟩]

namespace Solver

/-- A new solver is in good standing. -/
theorem settled_new (discipline : Discipline) (identity : Nat) (options : Options) :
    (new identity options : Solver Rat).Settled discipline fun id => id ∈ ([] : List Nat) := by
  have no_constraint : ∀ key constraint,
      (new identity options : Solver Rat).constraints.get? key ≠ some constraint := by
    intro key constraint found
    exact Option.some_ne_none _ found.symm
  have no_variable : ∀ symbol state,
      (new identity options : Solver Rat).unknowns.get? symbol ≠ some state := by
    intro symbol state found
    exact Option.some_ne_none _ found.symm
  have ledger : (new identity options : Solver Rat).constraints.ledger (fun _ => 0) = [] := by
    refine List.eq_nil_iff_forall_not_mem.mpr fun entry member => ?_
    obtain ⟨key, constraint, found, _⟩ := (Catalog.mem_ledger_iff _ _ _).mp member
    exact no_constraint key constraint found
  refine ⟨fun _ => .external, fun _ => 0, ⟨⟨⟨?_, ?_, ?_, ?_, ?_, ?_, ?_⟩, ?_, ?_⟩, ?_, rfl,
    Tableau.restful_empty discipline, ⟨?_, ?_⟩⟩, ?_, fun _ => False.elim,
      fun _ moved => absurd rfl moved, fun _ member => absurd member List.not_mem_nil,
        fun key constraint found => absurd found (no_constraint key constraint)⟩
  · exact fun symbol state found => absurd found (no_variable symbol state)
  · exact fun symbol state found => absurd found (no_variable symbol state)
  · exact fun key constraint found => absurd found (no_constraint key constraint)
  · exact fun key constraint found => absurd found (no_constraint key constraint)
  · exact fun key constraint found => absurd found (no_constraint key constraint)
  · exact fun key constraint found => absurd found (no_constraint key constraint)
  · exact fun key constraint found => absurd found (no_constraint key constraint)
  · rw [ledger]
    exact .nil _
  · exact fun _ key constraint found => absurd found (no_constraint key constraint)
  · rw [ledger]
    exact .empty _
  · exact fun symbol state found => absurd found (no_variable symbol state)
  · exact fun symbol state found => absurd found (no_variable symbol state)
  · rintro symbol key target ⟨state, found, _⟩
    exact absurd found (no_variable symbol state)

end Solver

namespace Action

open Solver

variable {discipline : Discipline} {solver after : Solver Rat} {issued : List Nat}

theorem yields_finish {action : Action Rat Unit} {refused : Refusal → Solver Rat → Prop}
    (yields : action.Yields solver (fun _ after => after.Settled discipline (· ∈ issued)) refused) :
    (Command.action.finish action).Yields solver
      (fun reply after => after.Settled discipline (· ∈ reply.issued ++ issued)) refused :=
  Yields.bind yields fun _ _ settled => Yields.pure settled

theorem settled_of_created {handle : ConstraintHandle}
    (created : Created discipline (· ∈ issued) solver handle after) :
    after.Settled discipline (· ∈ (Reply.constraint handle).issued ++ issued) := by
  obtain ⟨rfl, settled⟩ := created
  have same : ∀ id, id ∈ (Reply.constraint
      ⟨solver.lastConstraint + 1, solver.identity⟩).issued ++ issued ↔
        id ∈ issued ∨ id = solver.lastConstraint + 1 := by
    intro id
    rw [List.mem_append, or_comm, Reply.issued, List.mem_singleton]
  exact settled.fewer (fun id => (same id).mp) fun key _ _ => (same key.id).mpr

end Action

namespace Command

open SoftSimplex.Action Solver

variable {discipline : Discipline} {solver : Solver Rat} {issued : List Nat}
  {command : Command Rat}

/-- No command disturbs the good standing of a solver. -/
theorem yields_action (sound : solver.Settled discipline (· ∈ issued))
    (own : ∀ handle ∈ command.named, solver.Issued (· ∈ issued) handle)
    (priced : discipline.priced → ∀ strength ∈ command.stated, 0 ≤ strength.weight)
    (steady : discipline.steady → command.takesOut solver = false) :
    command.action.Yields solver
      (fun reply after => after.Settled discipline (· ∈ reply.issued ++ issued))
      (fun _ after => after.Settled discipline (· ∈ issued)) := by
  cases command with
  | createVariable =>
      refine Yields.map (Yields.of_leads (leads_createVariable solver) ?_)
      rintro handle _ rfl
      exact sound.grown
  | shareVariable handle =>
      refine yields_finish ((yields_shareVariable sound handle).mono (fun _ _ => id) ?_)
      rintro _ _ rfl
      exact sound
  | giveUpVariable handle =>
      exact yields_finish (Yields.of_leads (leads_giveUpVariable sound handle) fun _ _ => id)
  | createConstraint strength =>
      refine Yields.map (Yields.of_leads (created_createConstraint sound fun is_priced =>
        priced is_priced strength (by simp [stated])) fun _ _ => settled_of_created)
  | copyConstraint source strength =>
      exact Yields.map ((yields_copyConstraint sound (fun is_priced =>
        priced is_priced strength (by simp [stated])) source).mono
          (fun _ _ => settled_of_created) fun _ _ => id)
  | mergeConstraint handle source factor =>
      refine yields_finish ((yields_mergeConstraint sound (own handle (by simp [named]))
        source factor).mono (fun _ _ touched => touched.settled) ?_)
      rintro _ _ rfl
      exact sound
  | addTerm handle inside coefficient =>
      refine yields_finish ((yields_addTerm sound (own handle (by simp [named])) inside
        coefficient).mono (fun _ _ both => both.1.settled) ?_)
      rintro _ _ rfl
      exact sound
  | addConstant handle constant =>
      refine yields_finish ((yields_addConstant sound (own handle (by simp [named]))
        constant).mono (fun _ _ both => both.1.settled) ?_)
      rintro _ _ rfl
      exact sound
  | setRelation handle relation =>
      refine yields_finish ((yields_setRelation sound (own handle (by simp [named]))
        relation).mono (fun _ _ both => both.1.settled) ?_)
      rintro _ _ rfl
      exact sound
  | setStrength handle strength =>
      refine yields_finish (yields_setStrength sound (own handle (by simp [named]))
        (fun is_priced => priced is_priced strength (by simp [stated]))
        fun is_steady constraint is_constraint firm => ?_)
      have kept := steady is_steady
      rw [takesOut, isFirm_eq_true (of_findConstraint is_constraint).1 firm, Bool.true_and,
        strengthOf?, is_constraint] at kept
      simpa [bne] using kept
  | addConstraint handle =>
      exact yields_finish (yields_addConstraint sound (own handle (by simp [named])))
  | withdrawConstraint handle =>
      refine yields_finish (Yields.of_leads (leads_withdrawConstraint sound
        (own handle (by simp [named])) fun is_steady owned firm => ?_)
        fun _ _ both => both.1.settled)
      exact Bool.noConfusion ((isFirm_eq_true owned firm).symm.trans (steady is_steady))
  | eraseConstraint handle =>
      refine yields_finish (Yields.of_leads (leads_eraseConstraint sound
        (own handle (by simp [named])) fun is_steady owned firm => ?_)
        fun _ _ both => both.1.settled)
      exact Bool.noConfusion ((isFirm_eq_true owned firm).symm.trans (steady is_steady))
  | discardConstraint handle =>
      refine yields_finish (Yields.of_leads (leads_discardConstraint sound
        (own handle (by simp [named])) fun is_steady owned firm => ?_)
        fun _ _ both => both.1.settled)
      exact Bool.noConfusion ((isFirm_eq_true owned firm).symm.trans (steady is_steady))
  | beginEdit handle strength =>
      exact yields_finish (yields_beginEdit sound handle fun is_priced =>
        priced is_priced strength (by simp [stated]))
  | suggest handle target =>
      exact yields_finish (Yields.of_leads (leads_suggest sound handle target) fun _ _ => id)
  | endEdit handle =>
      exact yields_finish (Yields.of_leads (leads_endEdit sound handle) fun _ _ => And.left)
  | refresh => exact yields_finish (Yields.update sound.refresh)
  | reset dropConstraints =>
      exact yields_finish (Yields.of_leads (leads_reset sound dropConstraints) fun _ _ => And.left)
  | setAutoUpdate autoUpdate =>
      exact yields_finish (Yields.update (sound.with_autoUpdate autoUpdate))

end Command

/-- What an action yields is what its execution gives. -/
theorem Action.Yields.perform {command : Command Rat} {solver : Solver Rat}
    {answered : Reply → Solver Rat → Prop} {refused : Refusal → Solver Rat → Prop}
    (yields : command.action.Yields solver answered refused) (steps : Nat) :
    match (solver.perform command steps).1 with
    | .answered reply => answered reply (solver.perform command steps).2
    | .refused reason => refused reason (solver.perform command steps).2
    | .paused => True := by
  have here := yields steps
  unfold Solver.perform
  revert here
  cases command.action ⟨solver, steps⟩ with
  | ok reply session => exact id
  | error interrupt session => cases interrupt <;> exact id

namespace Course

variable {discipline : Discipline} {course : Course Rat}

/-- Every course of a history is in good standing. -/
theorem Reached.settled (reached : Reached discipline course) :
    course.solver.Settled discipline (· ∈ course.issued) := by
  induction reached with
  | start identity options => exact Solver.settled_new discipline identity options
  | @step course command steps reached allowed inductionHypothesis =>
      have ends := (Command.yields_action inductionHypothesis allowed.own allowed.priced
        allowed.steady).perform steps
      have final := allowed.final
      unfold next
      revert ends final
      cases (course.solver.perform command steps).1 with
      | answered reply => exact fun settled _ => settled
      | refused reason => exact fun settled _ => settled
      | paused => exact fun _ => Bool.noConfusion

end Course

end SoftSimplex
