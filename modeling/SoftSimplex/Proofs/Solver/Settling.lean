import SoftSimplex.Proofs.Solver.Activation
import SoftSimplex.Proofs.Solver.Completion
import SoftSimplex.Proofs.Solver.Filing
import SoftSimplex.Proofs.Tableau.Rivals

/-!
# Wishes that are activated

Activating a wish for a variable is answered with a single step to spare, if nothing else is live or
just another wish for that variable which is granted. What the tableau says about the variable after
that is what the two wishes have pulled it to.
-/

namespace SoftSimplex

variable {kinds : Nat → Symbol.Kind} {offset : Nat → Rat} {solver : Solver Rat}
  {lowered : Tableau Rat} {need : Nat} {key symbol subject : Symbol}
  {constraint kept : Constraint Rat} {wish wish' : Wish}

theorem Tableau.Favours.told {tableau : Tableau Rat} {given : Constraint Rat}
    (favours : tableau.Favours kinds symbol wish wish' kept given) :
    tableau.told.Favours kinds symbol wish wish' kept given :=
  ⟨favours.keeps, favours.gives, favours.entries, favours.stands.told,
    favours.upright.alike tableau.alike_told, favours.idle, favours.free, favours.half⟩

namespace Action

open Solver

theorem completes_descend (lowers : solver.tableau.Lowers need lowered) :
    (descend none).Completes solver need fun _ after => after = solver.adopt lowered := by
  intro spare
  refine ⟨(true, none), solver.adopt lowered, spare, ?_, le_rfl, rfl⟩
  simp only [descend, lowers spare]

/-- Without a row that waits there is nothing to be repaired. -/
theorem completes_repair (idle : solver.tableau.agenda.repairs = []) :
    (repair : Action Rat Unit).Completes solver 0 fun _ after =>
      after = solver.adopt solver.tableau := by
  intro spare
  have halts : solver.tableau.repairStep = .halt () := by
    rw [Tableau.repairStep, idle]
  refine ⟨(), solver.adopt solver.tableau, 0 + spare, ?_, (Nat.zero_add spare).ge, rfl⟩
  simp only [repair, Tableau.repair, iterate_of_halt halts]

/-- Both phases and the refresh that may follow. -/
theorem completes_settle (lowers : solver.tableau.Lowers need lowered)
    (idle : lowered.agenda.repairs = []) :
    (do optimize; refreshIfAutomatic : Action Rat Unit).Completes solver need fun _ after =>
      after.constraints = solver.constraints ∧ after.tableau = lowered.told := by
  have optimizes : (optimize : Action Rat Unit).Completes solver need fun _ after =>
      after.constraints = solver.constraints ∧ after.tableau = lowered.told := by
    refine Completes.afterwards (completes_descend lowers) ?_
    rintro _ _ rfl
    refine (completes_repair ?_).mono ?_
    · rw [adopt_tableau]
      exact idle
    · rintro _ _ rfl
      rw [adopt_constraints, adopt_constraints, adopt_tableau, adopt_tableau]
      exact ⟨rfl, rfl⟩
  refine Completes.afterwards optimizes fun _ between settled => Completes.update ?_
  split
  · exact settled
  · exact settled

/-- A constraint whose row has a subject. -/
theorem completes_activate (found : solver.constraints.get? key = some constraint)
    (chosen : (solver.tableau.rowFor constraint.expression
      (solver.marking constraint).markers).subject? [(solver.marking constraint).markers.marker,
        (solver.marking constraint).markers.other] = some subject)
    (lowers : ((solver.prepared key constraint).tableau.pivot (solver.tableau.rowFor
      constraint.expression (solver.marking constraint).markers) subject Symbol.null).told.Lowers
        need lowered) (idle : lowered.agenda.repairs = []) :
    (activate key).Completes solver need fun _ after =>
      after.constraints = (solver.prepared key constraint).constraints ∧
        after.tableau = lowered.told := by
  have prepares : (prepare key constraint).Completes solver 0 fun result after =>
      result = (solver.tableau.rowFor constraint.expression (solver.marking constraint).markers,
        (solver.marking constraint).markers) ∧ after = solver.prepared key constraint :=
    Completes.read_bind (Completes.update_bind (Completes.pure ⟨rfl, rfl⟩))
  refine Completes.read_bind ?_
  simp only [found]
  refine Completes.before prepares ?_
  rintro _ _ ⟨rfl, rfl⟩
  have places : (place (solver.tableau.rowFor constraint.expression
      (solver.marking constraint).markers) (solver.marking constraint).markers).Completes
        (solver.prepared key constraint) 0 fun result after => result = .ok () ∧
          after = (solver.prepared key constraint).adopt
            ((solver.prepared key constraint).tableau.pivot (solver.tableau.rowFor
              constraint.expression (solver.marking constraint).markers) subject Symbol.null) := by
    unfold place
    rw [chosen]
    exact Completes.update_bind (Completes.pure ⟨rfl, rfl⟩)
  refine Completes.before places ?_
  rintro _ _ ⟨rfl, rfl⟩
  refine (completes_settle ?_ idle).mono fun _ after settled => ⟨?_, settled.2⟩
  · rw [adopt_tableau]
    exact lowers
  · rw [settled.1, adopt_constraints]

end Action

namespace Solver

open SoftSimplex.Action

/-- Markers do not change what a constraint asks for. -/
theorem voices_marking (voices : constraint.Voices wish symbol) (solver : Solver Rat) :
    (solver.marking constraint).Voices wish symbol :=
  ⟨voices.relation, voices.strength, voices.eval⟩

variable (standing : solver.Standing ⟨true, true⟩ kinds offset)
  (found : solver.constraints.get? key = some constraint)

include standing found

omit found in
theorem Standing.idle_prepared (key : Symbol) (constraint : Constraint Rat) :
    (solver.prepared key constraint).tableau.agenda.repairs = [] := by
  rw [prepared_tableau]
  exact standing.restful.idle

theorem Standing.pursues (voices : constraint.Voices wish symbol) (sensible : wish.Sensible) :
    (solver.marking constraint).Pursues (drawn kinds solver constraint) wish symbol :=
  ⟨voices_marking voices solver, (standing.entries_marking found).head, sensible⟩

/-- A wish is granted if nothing else is live. -/
theorem Standing.completes_first (alone : solver.constraints.ledger offset = [])
    (voices : constraint.Voices wish symbol) (sensible : wish.Sensible) {state : Variable Rat}
    (registered : solver.unknowns.get? symbol = some state) (external : symbol.kind = .external) :
    (activate key).Completes solver 0 fun _ after =>
      after.constraints = (solver.prepared key constraint).constraints ∧
        ∀ {first second sign}, (solver.marking constraint).Twins first second sign →
          after.tableau.form? first = none := by
  have draft := standing.draft_prepared found
  rw [alone] at draft
  obtain ⟨present, is_external⟩ := standing.registers symbol state registered
  have kind : drawn kinds solver constraint symbol.id = .external :=
    (drawn_eq solver constraint _ present (standing.variable_below _ _ registered)).trans is_external
  have proper : symbol.Proper (drawn kinds solver constraint) := ⟨present, external.trans kind.symm⟩
  obtain ⟨subject, chosen, stopped, repairs, free⟩ := draft.exists_granted
    (standing.pursues found voices sensible) (standing.upright_prepared key) proper
      ((proper.isOf_iff .external).mpr kind)
  refine (completes_activate found chosen (Tableau.lowers_self stopped)
    (repairs.trans (standing.idle_prepared key constraint))).mono fun _ after settled => ⟨settled.1, ?_⟩
  rw [settled.2]
  exact free

/-- Of two wishes for a variable the one that pulls harder is granted, and the first one if both pull
equally hard. -/
theorem Standing.completes_second (alone : solver.constraints.ledger offset = [kept])
    (keeps : kept.Voices wish symbol) (keeps_sensible : wish.Sensible)
    (free : ∀ {first second sign}, kept.Twins first second sign →
      solver.tableau.form? first = none) (voices : constraint.Voices wish' symbol)
    (sensible : wish'.Sensible) : (activate key).Completes solver 1 fun _ after =>
      after.constraints = (solver.prepared key constraint).constraints ∧
        after.tableau.value symbol =
          if wish'.pull ≤ wish.pull then wish.target else wish'.target := by
  have draft := standing.draft_prepared found
  rw [alone] at draft
  have pursues : kept.Pursues (drawn kinds solver constraint) wish symbol :=
    ⟨keeps, draft.entries.fit kept (List.mem_cons_of_mem _ List.mem_cons_self), keeps_sensible⟩
  obtain ⟨subject, chosen, favours⟩ := draft.exists_favours pursues
    (standing.pursues found voices sensible)
    (fun twins => by rw [prepared_tableau]; exact free twins) (standing.upright_prepared key)
      (standing.idle_prepared key constraint)
  obtain ⟨need, lowered, within, lowers, idle, value⟩ := favours.told.exists_lowers
  refine ((completes_activate found chosen lowers idle).weaken within).mono
    fun _ after settled => ⟨settled.1, ?_⟩
  rw [settled.2]
  exact value

end Solver

end SoftSimplex
