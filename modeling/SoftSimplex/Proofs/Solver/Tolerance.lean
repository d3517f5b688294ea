import SoftSimplex.Proofs.Solver.History

/-!
# Feasibility under the tolerance

Double precision tells numbers apart only if they differ by a millionth. While this makes no
difference, no restricted row is below zero when a command has come to an end. In general it can
leave a row below zero by more than the tolerance. A row that is below zero by less counts as
repaired. If it leaves the basis through a small coefficient after that, the row that comes in for
it is far below zero, and it is put in place without being queued.
-/

namespace SoftSimplex

deriving instance DecidableEq for Slot
deriving instance DecidableEq for Layout
deriving instance DecidableEq for SlotTable
deriving instance DecidableEq for LinearForm
deriving instance DecidableEq for Row
deriving instance DecidableEq for Agenda
deriving instance DecidableEq for Tableau
deriving instance DecidableEq for Arena
deriving instance DecidableEq for Catalog
deriving instance DecidableEq for Variable
deriving instance DecidableEq for Strength
deriving instance DecidableEq for Constraint
deriving instance DecidableEq for Solver

/-- Execute a command under the tolerance of double precision. -/
abbrev Solver.performTolerant (solver : Solver Rat) (command : Command Rat) (steps : Nat) :
    Ending × Solver Rat :=
  @perform Rat Rational.tolerant solver command steps

namespace Course

variable {course : Course Rat}

/-- The command states positive strengths only, names own constraints only if they were handed
out, and comes to an end under the tolerance. -/
structure Tolerates (course : Course Rat) (command : Command Rat) (steps : Nat) : Prop where
  own : ∀ handle ∈ command.named, handle.owner = course.solver.identity →
    handle.id ∈ course.issued
  positive : ∀ strength ∈ command.stated, 0 < strength.weight
  final : (course.solver.performTolerant command steps).1.isFinal = true

instance (course : Course Rat) (command : Command Rat) (steps : Nat) :
    Decidable (course.Tolerates command steps) :=
  decidable_of_iff
    ((∀ handle ∈ command.named, handle.owner = course.solver.identity →
      handle.id ∈ course.issued) ∧
    (∀ strength ∈ command.stated, 0 < strength.weight) ∧
    (course.solver.performTolerant command steps).1.isFinal = true)
    ⟨fun all => ⟨all.1, all.2.1, all.2.2⟩,
      fun tolerates => ⟨tolerates.own, tolerates.positive, tolerates.final⟩⟩

/-- The command states no negative strength and takes no live required equality out, and the
tolerance makes no difference to it. -/
structure Unswayed (course : Course Rat) (command : Command Rat) (steps : Nat) : Prop where
  allowed : course.Allows ⟨true, true⟩ command steps
  same : course.solver.performTolerant command steps = course.solver.perform command steps

instance (course : Course Rat) (command : Command Rat) (steps : Nat) :
    Decidable (course.Unswayed command steps) :=
  decidable_of_iff
    (course.Allows ⟨true, true⟩ command steps ∧
    course.solver.performTolerant command steps = course.solver.perform command steps)
    ⟨fun both => ⟨both.1, both.2⟩, fun unswayed => ⟨unswayed.allowed, unswayed.same⟩⟩

/-- A history to which the tolerance makes no difference is one of exact arithmetic. -/
theorem Arises.reached (arises : @Arises Rat Rational.tolerant Unswayed course) :
    course.Reached ⟨true, true⟩ := by
  induction arises with
  | start identity options => exact .start identity options
  | step _ unswayed inductionHypothesis =>
      have stepped := inductionHypothesis.step unswayed.allowed
      rwa [Course.next, ← unswayed.same] at stepped

end Course

/-- If no live required equality was taken out and the tolerance has made no difference, every
restricted row is nonnegative. -/
theorem restricted_row_nonneg_of_unswayed {course : Course Rat}
    (arises : @Course.Arises Rat Rational.tolerant Course.Unswayed course) :
    ∀ row ∈ course.solver.tableau.equations,
      row.1.isRestricted = true → 0 ≤ row.2.constant := by
  obtain ⟨_, _, standing, _⟩ := arises.reached.settled
  exact standing.restful.feasible rfl rfl

/-- Commands that create a constraint of the first solver, write it and add it. -/
def Command.written (id : Nat) (strength : Rat) (terms : List (Nat × Rat)) (relation : Relation)
    (number : Rat) : List (Command Rat) :=
  createConstraint ⟨strength⟩ ::
    terms.map (fun term => addTerm ⟨id, 0⟩ ⟨term.1, 0⟩ term.2) ++
      [setRelation ⟨id, 0⟩ relation, addConstant ⟨id, 0⟩ number, addConstraint ⟨id, 0⟩]

/-- A solver after some commands under the tolerance. Its catalogs grow place by place. -/
def afterTolerant (commands : List (Command Rat)) : Course Rat :=
  @Course.follow Rat Rational.tolerant 20 (.start 0 ⟨false, 1⟩) commands

theorem arises_afterTolerant {admits : Course Rat → Command Rat → Nat → Prop}
    {commands : List (Command Rat)}
    (admitted : @Course.Admits Rat Rational.tolerant admits 20 (.start 0 ⟨false, 1⟩) commands) :
    @Course.Arises Rat Rational.tolerant admits (afterTolerant commands) :=
  @Course.Arises.follow Rat Rational.tolerant _ _ _ _
    (@Course.Arises.start Rat Rational.tolerant _ 0 ⟨false, 1⟩) admitted

/-- A variable that is pulled beyond a bound, which it misses by ten. -/
def stretching : List (Command Rat) :=
  .createVariable :: .beginEdit ⟨1, 0⟩ .strong ::
    (Command.written 2 1000000000 [(1, 1)] .atMost 50 ++ [.suggest ⟨1, 0⟩ 60])

theorem restricted_row_nonneg_stretched :
    @Course.Arises Rat Rational.tolerant Course.Unswayed (afterTolerant stretching) ∧
      ∀ row ∈ (afterTolerant stretching).solver.tableau.equations,
        row.1.isRestricted = true → 0 ≤ row.2.constant :=
  have arises := arises_afterTolerant (by decide +kernel)
  ⟨arises, restricted_row_nonneg_of_unswayed arises⟩

/-- A variable is pulled half a millionth beyond a bound on itself and a small part of another
variable, which is pulled toward zero. Then the other one is asked to be at least ten. -/
def straining : List (Command Rat) :=
  .createVariable :: .createVariable :: .beginEdit ⟨1, 0⟩ .strong ::
    (Command.written 2 1 [(2, 1)] .equal 0 ++
      Command.written 3 1000000000 [(1, 1), (2, 1 / 65536)] .atMost 50 ++
      .suggest ⟨1, 0⟩ (50 + 1 / 2097152) :: Command.written 4 2 [(2, 1)] .atLeast 10)

/-- The row of the bound is left below zero by half a millionth. When it gives way to the last
constraint, the row that comes in for it is below zero by a thirty-second. -/
theorem restricted_row_below_tolerance :
    ¬ ∀ course : Course Rat, @Course.Arises Rat Rational.tolerant Course.Tolerates course →
      ∀ row ∈ course.solver.tableau.equations, row.1.isRestricted = true →
        -Rational.tolerance ≤ row.2.constant := fun always =>
  have bounded := always (afterTolerant straining) (arises_afterTolerant (by decide +kernel))
  absurd bounded (by decide +kernel)

end SoftSimplex
