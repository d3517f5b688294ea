import SoftSimplex.Proofs.Solver.Copying

/-!
# Scripts

A script is a list of commands that a caller gives one after the other. It carries a course to a goal
if every command is answered when its turn comes and the course that they lead to is as the goal
says. Scripts are put together from parts.

The commands that create a constraint and write it need no steps, and leave alone whatever they do
not name.
-/

namespace SoftSimplex

variable {discipline : Discipline} {steps need : Nat}

namespace Course

variable {course : Course Rat} {command : Command Rat} {commands rest : List (Command Rat)}
  {goal goal' : Course Rat → Prop}

/-- All of the commands are answered, one after the other. -/
def Answers (steps : Nat) : Course Rat → List (Command Rat) → Prop
  | _, [] => True
  | course, command :: rest =>
      (∃ reply, (course.solver.perform command steps).1 = .answered reply) ∧
        Answers steps (course.next command steps) rest

/-- All of the commands are answered, and the course that they lead to is as the goal says. -/
def Carries (steps : Nat) (course : Course Rat) (commands : List (Command Rat))
    (goal : Course Rat → Prop) : Prop :=
  course.Answers steps commands ∧ goal (course.follow steps commands)

namespace Carries

theorem mono (carries : course.Carries steps commands goal)
    (reaches : ∀ after, goal after → goal' after) : course.Carries steps commands goal' :=
  ⟨carries.1, reaches _ carries.2⟩

theorem append (first : course.Carries steps commands goal)
    (second : ∀ after, goal after → after.Carries steps rest goal') :
    course.Carries steps (commands ++ rest) goal' := by
  obtain ⟨answers, reached⟩ := first
  have later := second _ reached
  clear second reached
  induction commands generalizing course with
  | nil => exact later
  | cons command commands inductionHypothesis =>
      obtain ⟨answers', reached'⟩ := inductionHypothesis answers.2 later
      exact ⟨⟨answers.1, answers'⟩, reached'⟩

end Carries

/-- A command that completes, and names what is known and keeps to the discipline. -/
theorem Reached.carries (reached : course.Reached discipline)
    {answered : Reply → Solver Rat → Prop}
    (completes : command.action.Completes course.solver need answered) (enough : need ≤ steps)
    (own : ∀ handle ∈ command.named, handle.id ∈ course.issued)
    (priced : ∀ strength ∈ command.stated, 0 ≤ strength.weight)
    (steady : command.takesOut course.solver = false) :
    course.Carries steps [command] fun after => after.Reached discipline ∧
      ∃ reply, answered reply after.solver ∧ after.issued = reply.issued ++ course.issued := by
  obtain ⟨reply, is_reply, holds⟩ := completes.perform enough
  refine ⟨⟨⟨reply, is_reply⟩, trivial⟩, reached.step ⟨fun handle member _ => own handle member,
    fun _ => priced, fun _ => steady, ?_⟩, reply, holds, ?_⟩
  · rw [is_reply]
    rfl
  · change (course.solver.perform command steps).1.issued ++ course.issued = _
    rw [is_reply]
    rfl

end Course

namespace Solver

variable {solver before after : Solver Rat} {key : Symbol} {constraint other : Constraint Rat}

/-- The newest constraint has been written, and nothing else has changed but the references to
variables. -/
structure Writes (key : Symbol) (constraint : Constraint Rat) (solver after : Solver Rat) :
    Prop where
  identity : after.identity = solver.identity
  tableau : after.tableau = solver.tableau
  lastConstraint : after.lastConstraint = key.id
  registered : ∀ symbol state, solver.unknowns.get? symbol = some state →
    ∃ state', after.unknowns.get? symbol = some state'
  constraints : ∀ sought, after.constraints.get? sought =
    if sought.id = key.id then some constraint else solver.constraints.get? sought

namespace Writes

theorem found (writes : Writes key constraint solver after) :
    after.constraints.get? key = some constraint := by
  rw [writes.constraints, if_pos rfl]

/-- The constraint is written once more. -/
theorem rewrite (writes : Writes key constraint solver before) {unknowns : Catalog (Variable Rat)}
    (registered : ∀ symbol state, before.unknowns.get? symbol = some state →
      ∃ state', unknowns.get? symbol = some state') :
    Writes key other solver { before with
      constraints := before.constraints.modify key fun _ => other, unknowns } := by
  refine ⟨writes.identity, writes.tableau, writes.lastConstraint, fun symbol state found => ?_,
    fun sought => ?_⟩
  · obtain ⟨state', there⟩ := writes.registered symbol state found
    exact registered symbol state' there
  · dsimp only
    rw [Catalog.get?_modify, writes.constraints]
    split
    · rfl
    · rfl

theorem findInactive (writes : Writes key constraint solver after) {handle : ConstraintHandle}
    (named : handle.key = key) (owned : handle.owner = solver.identity)
    (inactive : constraint.isActive = false) : after.findInactive handle = .ok constraint :=
  findInactive_of_get? (owned.trans writes.identity.symm) (named ▸ writes.found) inactive

end Writes

end Solver

namespace Command

open SoftSimplex.Action Solver

variable {solver before : Solver Rat} {handle : ConstraintHandle} {inside : VariableHandle}
  {constraint : Constraint Rat}

theorem completes_create (solver : Solver Rat) (strength : Strength Rat) :
    (createConstraint strength).action.Completes solver 0 fun reply after =>
      reply = .constraint ⟨solver.lastConstraint + 1, solver.identity⟩ ∧
        Writes ⟨solver.lastConstraint + 1, .external⟩ (Constraint.blank strength.orRequired)
          solver after := by
  refine Completes.map (Completes.read_bind (Completes.update_bind (Completes.pure ⟨rfl, ?_⟩)))
  exact ⟨rfl, rfl, rfl, fun _ state found => ⟨state, found⟩,
    fun sought => Catalog.get?_insert _ _ _ _⟩

variable (writes : Writes handle.key constraint solver before)
  (owned : handle.owner = solver.identity) (inactive : constraint.isActive = false)

include writes owned inactive

theorem completes_addTerm (known : inside.owner = solver.identity) {state : Variable Rat}
    (registered : solver.unknowns.get? inside.symbol = some state)
    (absent : constraint.expression.mentions inside.symbol = false) {coefficient : Rat}
    (into : (constraint.addTerm inside.symbol coefficient).expression.mentions inside.symbol = true) :
    (addTerm handle inside coefficient).action.Completes before 0 fun reply after =>
      reply = .done ∧ Writes handle.key (constraint.addTerm inside.symbol coefficient) solver
        after := by
  obtain ⟨state', there⟩ := writes.registered _ state registered
  have found := findVariable_of_get? (known.trans writes.identity.symm) there
  have adds : (Action.addTerm handle inside coefficient).Completes before 0 fun _ after =>
      Writes handle.key (constraint.addTerm inside.symbol coefficient) solver after := by
    refine Completes.read_bind (Completes.granted_bind found (Completes.read_bind
      (Completes.granted_bind (writes.findInactive rfl owned inactive)
        (Completes.update_bind ?_))))
    refine (@completes_gain _ _ (inside.symbol, coefficient) absent into _).mono
      fun _ after adjusts => ?_
    rw [adjusts.rest]
    refine writes.rewrite fun symbol state is_state => ?_
    have kept := adjusts.unknowns symbol
    rw [is_state] at kept
    exact ⟨_, kept⟩
  exact Completes.afterwards adds fun _ _ written => Completes.pure ⟨rfl, written⟩

theorem completes_setRelation (unrelated : constraint.relation = none) (relation : Relation) :
    (setRelation handle relation).action.Completes before 0 fun reply after =>
      reply = .done ∧ Writes handle.key (constraint.relate relation) solver after := by
  have sets : (Action.setRelation handle relation : Action Rat Unit).Completes before 0
      fun _ after => Writes handle.key (constraint.relate relation) solver after := by
    refine Completes.read_bind (Completes.granted_bind (writes.findInactive rfl owned inactive) ?_)
    rw [unrelated, Option.isSome_none, if_neg Bool.false_ne_true]
    exact Completes.update (writes.rewrite fun _ state found => ⟨state, found⟩)
  exact Completes.afterwards sets fun _ _ written => Completes.pure ⟨rfl, written⟩

theorem completes_addConstant (constant : Rat) :
    (addConstant handle constant).action.Completes before 0 fun reply after =>
      reply = .done ∧ Writes handle.key (constraint.addConstant constant) solver after := by
  have adds : (Action.addConstant handle constant).Completes before 0 fun _ after =>
      Writes handle.key (constraint.addConstant constant) solver after := by
    refine Completes.read_bind (Completes.granted_bind (writes.findInactive rfl owned inactive) ?_)
    exact Completes.update (writes.rewrite fun _ state found => ⟨state, found⟩)
  exact Completes.afterwards adds fun _ _ written => Completes.pure ⟨rfl, written⟩

end Command

namespace Course

open Solver

variable {course between : Course Rat} {command : Command Rat} {handle : ConstraintHandle}
  {constraint other : Constraint Rat}

/-- The newest constraint has been handed out and written, and nothing else has happened. -/
structure Writing (discipline : Discipline) (handle : ConstraintHandle)
    (constraint : Constraint Rat) (course after : Course Rat) : Prop where
  reached : after.Reached discipline
  writes : Writes handle.key constraint course.solver after.solver
  issued : after.issued = handle.id :: course.issued

theorem Reached.carries_create (reached : course.Reached discipline)
    (owned : handle.owner = course.solver.identity)
    (newest : handle.id = course.solver.lastConstraint + 1) (strength : Strength Rat)
    (weight : 0 ≤ strength.weight) (steps : Nat) :
    course.Carries steps [.createConstraint strength]
      (course.Writing discipline handle (Constraint.blank strength.orRequired)) := by
  have is_handle : (⟨course.solver.lastConstraint + 1, course.solver.identity⟩ :
      ConstraintHandle) = handle := by
    rw [← owned, ← newest]
  refine (reached.carries (Command.completes_create course.solver strength) (Nat.zero_le steps)
    (fun _ member => absurd member List.not_mem_nil) (fun given member => ?_) rfl).mono ?_
  · rw [List.mem_singleton.mp member]
    exact weight
  · rintro after ⟨reached', _, ⟨rfl, writes⟩, issued⟩
    rw [is_handle] at issued
    rw [← newest] at writes
    exact ⟨reached', writes, issued⟩

/-- The newest constraint is written further. -/
theorem Writing.carries (writing : course.Writing discipline handle constraint between)
    (completes : command.action.Completes between.solver 0 fun reply after =>
      reply = .done ∧ Writes handle.key other course.solver after)
    (names : command.named = [handle]) (plain : command.stated = [])
    (steady : command.takesOut between.solver = false) (steps : Nat) :
    between.Carries steps [command] (course.Writing discipline handle other) := by
  refine (writing.reached.carries completes (Nat.zero_le steps) (fun named member => ?_)
    (fun strength member => ?_) steady).mono ?_
  · rw [names, List.mem_singleton] at member
    rw [member, writing.issued]
    exact List.mem_cons_self
  · rw [plain] at member
    exact absurd member List.not_mem_nil
  · rintro after ⟨reached, _, ⟨rfl, writes⟩, issued⟩
    exact ⟨reached, writes, issued.trans writing.issued⟩

end Course

end SoftSimplex
