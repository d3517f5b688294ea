import SoftSimplex.Proofs.Solver.Coherence
import SoftSimplex.Proofs.Solver.OrderedTurns
import SoftSimplex.Proofs.Solver.Tolerance

/-!
# Basic and free symbols stay apart

Whatever the arithmetic does, a symbol that has a row occurs in no form, before and after every turn
that is taken, and a row is given only to a symbol that has none. So in every history, and after
every single change of the tableau that a command makes, no symbol that has a row occurs in a row or
in the objective, and no row is put over another one. Nothing is asked of the arithmetic but that it
does not take the negative unit for nothing.
-/

namespace SoftSimplex

variable {α : Type} [Scalar α]

open SoftSimplex.Action Solver

omit [Scalar α] in
theorem Solver.InOrder.separate {solver : Solver α} (inOrder : solver.InOrder) :
    solver.tableau.Separate :=
  have ⟨_, _, ordered⟩ := inOrder
  ordered.separate

/-- The artificial symbol is drawn above all others, so it has no row yet. -/
theorem orderly_clean : Turn.Orderly (Turn.All (Turn.Clean (α := α))) where
  plain := fun occasion _ plain separate separate' =>
    List.forall_mem_singleton.mpr (separate.clean_plain plain separate' occasion)
  descends := fun ordered written steps => ordered.clean_descendTurns written steps
  repairs := fun ordered steps => ordered.clean_repairTurns steps
  frees := fun ordered proper => ordered.clean_freeing proper
  drops := fun ordered proper => ordered.clean_marker proper
  seats := fun accounted found chosen =>
    (accounted.workable_prepared found).ordered.clean_pivot (accounted.free_subject found chosen)
      (accounted.over_row found) nofun
  tries := by
    intro kinds solver key constraint accounted found
    have below : ∀ id, id ≤ (solver.prepared key constraint).symbols.last →
        id ≤ (solver.prepared key constraint).symbols.last + 1 ∧
          id ≠ ((solver.prepared key constraint).symbols.draw .slack).1.id :=
      fun id low => ⟨Nat.le_succ_of_le low, (Nat.lt_succ_of_le low).ne⟩
    have arranged := (accounted.workable_prepared found).ordered.toArranged.mono below
    exact List.forall_mem_singleton.mpr (arranged.clean_put Markers.proper_draw (Nat.le_refl _)
      ((accounted.over_row found).mono fun _ free => ⟨free.1, below _ free.2⟩))

section Unit

variable (unit : Scalar.negligible (0 + -1 : α) = false)

include unit

/-- In every history, at every pause, and before and after every single change of rows and
objective, no symbol that has a row occurs in a row or in the objective. No row is put over another
one. -/
theorem basic_symbols_stay_apart {course : Course α} (arises : course.Arises Course.Ends)
    (command : Command α) (steps : Nat) :
    course.solver.tableau.Separate ∧ (course.solver.perform command steps).2.tableau.Separate ∧
      course.solver.Proceeds Turn.Clean command steps := by
  have accountable := arises.accountable unit
  have ⟨_, accounted⟩ := accountable
  refine ⟨accounted.ordered.separate, ?_, ?_⟩
  · exact (accountable.perform unit command steps).1.separate
  · exact proceeds (orderly_clean.ensures_command unit accountable command) steps

end Unit

/-- The solver of an overruled variable before it is pulled toward five. -/
def beforePull : Course Rat :=
  (Course.start 0 ⟨false, 1⟩).follow 20 overruled.dropLast

/-- Six turns are taken to pull the variable. -/
theorem pull_stays_apart :
    (beforePull.solver.turns (.addConstraint ⟨3, 0⟩) 20).length = 6 ∧
      beforePull.solver.tableau.Separate ∧
        (beforePull.solver.perform (.addConstraint ⟨3, 0⟩) 20).2.tableau.Separate ∧
          beforePull.solver.Proceeds Turn.Clean (.addConstraint ⟨3, 0⟩) 20 :=
  ⟨by decide +kernel, basic_symbols_stay_apart (by decide +kernel)
    ((Course.Arises.start 0 ⟨false, 1⟩).follow (by decide +kernel)) _ _⟩

end SoftSimplex
