import SoftSimplex.Proofs.Solver.Drafting
import SoftSimplex.Proofs.Solver.OrderedTurns
import SoftSimplex.Proofs.Solver.Tolerance
import SoftSimplex.Proofs.Tableau.Careful

/-!
# Divisors

The equations that a solver solves along its history are read off its turns, command by command.
Since the turns are linked, no other equation is solved. Under the tolerance every one of them has
its symbol, which is not the one that leaves, with a coefficient other than zero, and no coefficient
of the objective or of an expression is ever negligible. The same cannot be said of rows. Solving a
row for a symbol with a large coefficient makes the others small without dropping them, and the next
equation may be divided by one of these. While no divisor is larger than one, this does not happen.
-/

namespace SoftSimplex

variable {α : Type} [Scalar α] {fine mild : α → Prop}

/-- A subject occurs in its row: an external symbol or a falling marker is found there, and a marker
that is a dummy is fresh and has come in with the unit. -/
theorem Solver.Accounted.exists_coefficient_subject (dependable : Scalar.Dependable α)
    {kinds : Nat → Symbol.Kind} {solver : Solver α} {key subject : Symbol}
    {constraint : Constraint α} (accounted : solver.Accounted kinds)
    (found : solver.constraints.get? key = some constraint)
    (chosen : (solver.drafted constraint).subject? [(solver.marking constraint).markers.marker,
        (solver.marking constraint).markers.other] = some subject ∨
      subject = (solver.marking constraint).markers.marker) :
    ∃ divisor, (solver.drafted constraint).coefficient? subject = some divisor := by
  have fit := fit_marking kinds solver constraint
  rcases chosen with chosen | rfl
  · rcases LinearForm.of_subject?_eq_some chosen with
      ⟨_, coefficient, member⟩ | ⟨_, _, _, coefficient, mentioned, _⟩
    · exact ⟨coefficient, (LinearForm.coefficient?_eq_some_iff _ _ _).mpr ⟨_, member, rfl, rfl⟩⟩
    · exact ⟨coefficient, mentioned⟩
  · obtain ⟨_, ordered, filed⟩ := accounted.rekind_drawn constraint
    exact ordered.toArranged.exists_coefficient_marker dependable
      (filed.placed key constraint found).expression fit
      (Nat.not_le_of_lt (Markers.id_draw fit.marker_proper.1 (Or.inl rfl)).1)

/-- The row of a constraint is a sum, so its coefficients belong to the class. -/
theorem orderly_careful (grain : Scalar.Grain fine mild) (dependable : Scalar.Dependable α) :
    Turn.Orderly (Turn.Careful fine mild) where
  plain := fun occasion _ plain _ _ => Turn.careful_plain plain _ occasion
  descends := fun ordered written steps => ordered.careful_descendTurns grain written steps
  repairs := fun ordered steps => ordered.careful_repairTurns grain steps
  frees := fun ordered proper => ordered.careful_freeing grain proper
  drops := fun ordered _ => ordered.careful_marker grain.counts _
  seats := by
    intro kinds solver key subject constraint accounted found chosen
    have free := accounted.free_subject found chosen
    obtain ⟨divisor, divided⟩ := accounted.exists_coefficient_subject dependable found chosen
    have counts := Tableau.Grained.rowFor grain.turned_counts solver.tableau
      constraint.expression (solver.marking constraint).markers
    exact Tableau.careful_pivot grain _ (fun term member => grain.counts _ (counts term member))
      free.1.1.1 divided
  tries := by
    intro kinds solver key constraint _ _
    have counts := Tableau.Grained.rowFor grain.turned_counts solver.tableau
      constraint.expression (solver.marking constraint).markers
    exact Turn.careful_series rfl fun grained =>
      grained.put _ fun term member => grain.counts _ (counts term member)

namespace Solver

variable {solver : Solver α}

/-- The coefficients of rows belong to a class, and those of the objective and of the expressions
of constraints count. -/
structure Grained (fine : α → Prop) (solver : Solver α) : Prop where
  tableau : solver.tableau.Grained fine
  expressions : ∀ key constraint, solver.constraints.get? key = some constraint →
    constraint.expression.Grained Scalar.Counts

theorem Grained.new (identity : Nat) (options : Options) :
    (Solver.new identity options : Solver α).Grained fine := by
  refine ⟨.empty, fun key constraint found => ?_⟩
  rw [Solver.new, Catalog.get?_new] at found
  exact absurd found.symm (Option.some_ne_none constraint)

section Expressions

variable (turned : ∀ number : α, Scalar.Counts number → Scalar.Counts (number * -1))

include turned

/-- What is written into an expression is a sum, or the expression is turned. -/
theorem Revises.counts {constraint written : Constraint α}
    (revises : solver.Revises constraint written)
    (counts : constraint.expression.Grained Scalar.Counts) :
    written.expression.Grained Scalar.Counts := by
  cases revises with
  | addTerm _ coefficient => exact counts.plus (fun _ => id) _ _
  | addConstant constant => exact counts.of_terms rfl
  | addForm _ factor => exact counts.plusMultiple (fun _ => id) _ _
  | relate relation =>
      cases relation with
      | atLeast => exact counts
      | atMost => exact counts.scale turned
      | equal => exact counts.scale turned
  | erase => exact .cleared _
  | strengthen strength => exact counts

theorem Change.expressions_count {after : Solver α} (change : Change solver after)
    (counts : ∀ key constraint, solver.constraints.get? key = some constraint →
      constraint.expression.Grained Scalar.Counts) :
    ∀ key constraint, after.constraints.get? key = some constraint →
      constraint.expression.Grained Scalar.Counts := by
  intro sought constraint there
  cases change with
  | spare _ _ quotes =>
      obtain ⟨before, was, same⟩ := quotes sought constraint there
      rw [same]
      exact counts sought before was
  | create =>
      rcases Catalog.of_get?_insert there with ⟨_, rfl⟩ | ⟨_, was⟩
      · exact .ofConstant 0
      · exact counts sought constraint was
  | write found revises =>
      rcases Catalog.of_get?_modify there with ⟨_, _, _, rfl⟩ | ⟨_, was⟩
      · exact revises.counts turned (counts _ _ found)
      · exact counts sought constraint was
  | _ => exact counts sought constraint there

end Expressions

/-- The solver after some commands, each with its allotment of steps, and all equations that have
been solved. Nothing follows a pause. -/
def work : Solver α → List (Command α × Nat) → Solver α × List (Division α)
  | solver, [] => (solver, [])
  | solver, (command, steps) :: rest =>
      let (ending, after) := solver.perform command steps
      if ending.isFinal then
        let (last, later) := work after rest
        (last, solver.divisions command steps ++ later)
      else (after, solver.divisions command steps)

/-- All coefficients belong to a class, and all equations were solved for a symbol that occurred
with a coefficient of the class and was not the leaving one. -/
structure Clean (fine : α → Prop) (solver : Solver α) (solved : List (Division α)) : Prop where
  grained : solver.Grained fine
  sound : ∀ division ∈ solved, division.Sound fine

section Steps

variable (grain : Scalar.Grain fine mild) (dependable : Scalar.Dependable α)
  (accountable : solver.Accountable) (grained : solver.Grained fine)

include grain dependable accountable grained

/-- One command. -/
theorem clean_perform (command : Command α) (steps : Nat)
    (milds : ∀ division ∈ solver.divisions command steps, division.Mild mild) :
    Clean fine (solver.perform command steps).2 (solver.divisions command steps) := by
  have careful := claim_turns ((orderly_careful grain dependable).ensures_command
    dependable.lowered_counts accountable command) steps
  obtain ⟨tableau, sound⟩ := careful grained.tableau milds
  have expressions := (solver.changes_perform command steps).keeps
    (fun _ _ change => change.expressions_count grain.turned_counts) grained.expressions
  exact ⟨⟨tableau, expressions⟩, sound⟩

/-- A whole history. -/
theorem clean_work (requests : List (Command α × Nat))
    (milds : ∀ division ∈ (solver.work requests).2, division.Mild mild) :
    Clean fine (solver.work requests).1 (solver.work requests).2 := by
  induction requests generalizing solver with
  | nil => exact ⟨grained, fun _ member => absurd member List.not_mem_nil⟩
  | cons request rest inductionHypothesis =>
      obtain ⟨command, steps⟩ := request
      have here := clean_perform grain dependable accountable grained command steps
      unfold work at milds ⊢
      dsimp only at milds ⊢
      split at milds
      · rename_i final
        rw [List.forall_mem_append] at milds
        have now := here milds.1
        have accountable' := (accountable.perform dependable.lowered_counts command steps).2 final
        have later := inductionHypothesis accountable' now.grained milds.2
        rw [if_pos final]
        exact ⟨later.grained, List.forall_mem_append.mpr ⟨now.sound, later.sound⟩⟩
      · rename_i paused
        rw [if_neg paused]
        exact here milds

end Steps

/-- Work under the tolerance of double precision. -/
abbrev workTolerant (solver : Solver Rat) (requests : List (Command Rat × Nat)) :
    Solver Rat × List (Division Rat) :=
  @work Rat Rational.tolerant solver requests

/-- What is clean under the tolerance of double precision. -/
abbrev CleanTolerant (fine : Rat → Prop) (solver : Solver Rat) (solved : List (Division Rat)) :
    Prop :=
  @Clean Rat Rational.tolerant fine solver solved

end Solver

/-- No division is by zero, and no coefficient of the objective or of an expression is negligible.
If no division is by more than one, none is by a negligible number either, and no coefficient of a
row is negligible. A larger divisor that was not taken down could have left one behind. -/
theorem divisions_clean (identity : Nat) (options : Options) (requests : List (Command Rat × Nat)) :
    ((Solver.new identity options).workTolerant requests).1.CleanTolerant (· ≠ 0)
        ((Solver.new identity options).workTolerant requests).2 ∧
      ((∀ division ∈ ((Solver.new identity options).workTolerant requests).2,
          division.Mild fun divisor => |divisor| ≤ 1) →
        ((Solver.new identity options).workTolerant requests).1.CleanTolerant
          (@Scalar.Counts Rat Rational.tolerant)
          ((Solver.new identity options).workTolerant requests).2) := by
  have accountable : @Solver.Accountable Rat Rational.tolerant (Solver.new identity options) :=
    ⟨_, @Solver.Accounted.new Rat Rational.tolerant identity options⟩
  constructor
  · exact @Solver.clean_work Rat Rational.tolerant _ _ _ Rational.grain_nonzero
      Rational.dependable_tolerant accountable
      (@Solver.Grained.new Rat Rational.tolerant _ identity options) requests
      fun _ _ _ _ => trivial
  · exact @Solver.clean_work Rat Rational.tolerant _ _ _ Rational.grain_counts
      Rational.dependable_tolerant accountable
      (@Solver.Grained.new Rat Rational.tolerant _ identity options) requests

/-- A new solver after some commands with ample steps, and the equations that have been solved. -/
def solvedFor (commands : List (Command Rat)) : Solver Rat × List (Division Rat) :=
  (Solver.new 0 ⟨false, 1⟩ : Solver Rat).workTolerant (commands.map fun command => (command, 20))

/-- Five equations are solved for the strained bound, and the last one is divided by a small
number. -/
theorem divisions_clean_straining :
    (solvedFor straining).2.length = 5 ∧
      (∀ division ∈ (solvedFor straining).2, division.Mild fun divisor => |divisor| ≤ 1) ∧
      (solvedFor straining).1.CleanTolerant (@Scalar.Counts Rat Rational.tolerant)
        (solvedFor straining).2 :=
  have milds : ∀ division ∈ (solvedFor straining).2, division.Mild fun divisor => |divisor| ≤ 1 :=
    by decide +kernel
  ⟨by decide +kernel, milds, (divisions_clean 0 ⟨false, 1⟩ _).2 milds⟩

/-- A variable with the coefficient two to the twenty-fourth is set to a value. -/
def weighing : List (Command Rat) :=
  .createVariable :: Command.written 1 1001001000 [(1, 16777216)] .equal 5

/-- The dummy of the weighed variable is left in its row with a coefficient of two to the minus
twenty-fourth. When the variable is set free, the row is divided by it. -/
theorem divided_by_negligible :
    (¬ ∀ commands : List (Command Rat), ∀ row ∈ (solvedFor commands).1.tableau.equations,
        row.2.Grained (@Scalar.Counts Rat Rational.tolerant)) ∧
      ¬ ∀ commands : List (Command Rat), ∀ division ∈ (solvedFor commands).2,
        division.Sound (@Scalar.Counts Rat Rational.tolerant) :=
  ⟨fun always => absurd (always weighing) (by decide +kernel),
    fun always => absurd (always (weighing ++ [.withdrawConstraint ⟨1, 0⟩])) (by decide +kernel)⟩

end SoftSimplex
