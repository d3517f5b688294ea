import SoftSimplex.Solver.Command

/-!
# Courses

A course is a solver with the numbers of the constraints that it has handed out and the deals of its
callers. Callers name no other constraints of it, since handles cannot be made up. A course arises
from a history if commands lead to it from a new solver, each of them admitted when its turn came.
What is admitted may depend on the course and on how the command comes to an end. No law of
arithmetic is assumed.
-/

namespace SoftSimplex

variable {α : Type}

/-- What a caller has done to the references it holds. -/
inductive Deal where
  | created (id : Nat)
  | shared (id : Nat)
  | gaveUp (id : Nat)
  deriving DecidableEq

/-- The number of the variable. -/
def Deal.id : Deal → Nat
  | .created id => id
  | .shared id => id
  | .gaveUp id => id

namespace Command

/-- The constraints that a command names. -/
def named : Command α → List ConstraintHandle
  | copyConstraint source _ => [source]
  | mergeConstraint handle source _ => [handle, source]
  | addTerm handle _ _ | addConstant handle _ | setRelation handle _ | setStrength handle _
  | addConstraint handle | withdrawConstraint handle | eraseConstraint handle
  | discardConstraint handle => [handle]
  | _ => []

/-- The strengths that a command states. -/
def stated : Command α → List (Strength α)
  | createConstraint strength | copyConstraint _ strength | setStrength _ strength
  | beginEdit _ strength => [strength]
  | _ => []

/-- What the caller of a command has done to the references it holds. Nothing is given up with a
handle that names no registered variable. -/
def dealings (solver : Solver α) : Command α → Ending → List Deal
  | createVariable, .answered (.variable handle) => [.created handle.id]
  | shareVariable handle, .answered _ => [.shared handle.id]
  | giveUpVariable handle, _ =>
      match solver.findVariable handle with
      | .ok _ => [.gaveUp handle.id]
      | .error _ => []
  | _, _ => []

end Command

/-- The number of a constraint that was handed out. -/
def Reply.issued : Reply → List Nat
  | constraint handle => [handle.id]
  | _ => []

namespace Ending

/-- The numbers of the constraints that were handed out. -/
def issued : Ending → List Nat
  | answered reply => reply.issued
  | _ => []

/-- The reason for a refusal. -/
def refusal? : Ending → Option Refusal
  | refused reason => some reason
  | _ => none

/-- The execution came to an end. -/
def isFinal : Ending → Bool
  | paused => false
  | _ => true

end Ending

/-- A solver, the numbers of the constraints that it has handed out, and the deals of its
callers. -/
structure Course (α : Type) where
  solver : Solver α
  issued : List Nat
  deals : List Deal

namespace Course

variable [Scalar α]

/-- A new solver has handed out nothing. -/
def start (identity : Nat) (options : Options) : Course α :=
  ⟨Solver.new identity options, [], []⟩

/-- The course after a command. -/
def next (course : Course α) (command : Command α) (steps : Nat) : Course α :=
  ⟨(course.solver.perform command steps).2,
    (course.solver.perform command steps).1.issued ++ course.issued,
    command.dealings course.solver (course.solver.perform command steps).1 ++ course.deals⟩

variable {admits : Course α → Command α → Nat → Prop}

/-- The course of some history in which every command was admitted. -/
inductive Arises (admits : Course α → Command α → Nat → Prop) : Course α → Prop
  | start (identity : Nat) (options : Options) : Arises admits (start identity options)
  | step {course : Course α} {command : Command α} {steps : Nat} (arises : Arises admits course)
      (admitted : admits course command steps) : Arises admits (course.next command steps)

/-- The course leads to the last one through the commands, each of them admitted when its turn
comes. -/
inductive Runs (admits : Course α → Command α → Nat → Prop) :
    Course α → List (Command α) → Course α → Prop
  | nil (course : Course α) : Runs admits course [] course
  | cons {course last : Course α} {command : Command α} {steps : Nat} {commands : List (Command α)}
      (admitted : admits course command steps)
      (rest : Runs admits (course.next command steps) commands last) :
      Runs admits course (command :: commands) last

/-- The course after some commands, each with the same allotment of steps. -/
def follow (steps : Nat) : Course α → List (Command α) → Course α
  | course, [] => course
  | course, command :: rest => follow steps (course.next command steps) rest

/-- Every one of the commands is admitted when its turn comes. -/
def Admits (admits : Course α → Command α → Nat → Prop) (steps : Nat) :
    Course α → List (Command α) → Prop
  | _, [] => True
  | course, command :: rest => admits course command steps ∧
      Admits admits steps (course.next command steps) rest

instance decidableAdmits [∀ course command steps, Decidable (admits course command steps)]
    (steps : Nat) : (course : Course α) → (commands : List (Command α)) →
      Decidable (course.Admits admits steps commands)
  | _, [] => inferInstanceAs (Decidable True)
  | course, command :: rest =>
      have := decidableAdmits steps (course.next command steps) rest
      inferInstanceAs (Decidable (admits course command steps ∧
        Admits admits steps (course.next command steps) rest))

variable {course between last : Course α} {commands later : List (Command α)} {steps : Nat}

theorem runs_follow (admitted : course.Admits admits steps commands) :
    course.Runs admits commands (course.follow steps commands) := by
  induction commands generalizing course with
  | nil => exact .nil course
  | cons command rest inductionHypothesis =>
      exact .cons admitted.1 (inductionHypothesis admitted.2)

theorem Runs.append (runs : course.Runs admits commands between)
    (runs' : between.Runs admits later last) : course.Runs admits (commands ++ later) last := by
  induction runs with
  | nil => exact runs'
  | cons admitted _ inductionHypothesis => exact .cons admitted (inductionHypothesis runs')

/-- Commands that are admitted prolong a history. -/
theorem Arises.runs (arises : course.Arises admits) (runs : course.Runs admits commands last) :
    last.Arises admits := by
  induction runs with
  | nil => exact arises
  | cons admitted _ inductionHypothesis => exact inductionHypothesis (arises.step admitted)

theorem Arises.follow (arises : course.Arises admits)
    (admitted : course.Admits admits steps commands) :
    (course.follow steps commands).Arises admits :=
  arises.runs (runs_follow admitted)

end Course

end SoftSimplex
