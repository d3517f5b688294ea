import SoftSimplex.Proofs.Solver.GuardedTurns
import SoftSimplex.Proofs.Solver.Undoing
import SoftSimplex.Proofs.Solver.Warrant

/-!
# External symbols stay aside

That a solver is in good standing, as far as this does not depend on what its history has kept to,
is a warrant for guarded turns. So in every history in exact arithmetic, and after every single
change of the tableau that a command makes, only rows of external symbols mention external symbols.
Both phases let slacks and missed amounts in and nothing else, and the row of an external symbol
goes only with the marker of a constraint, or when a reset empties the tableau.
-/

namespace SoftSimplex

variable {kinds : Nat → Symbol.Kind} {offset : Nat → Rat} {solver : Solver Rat} {key : Symbol}
  {constraint : Constraint Rat} {empties : Prop}

namespace Solver

/-- The solver is in good standing, whatever its history has kept to. -/
def Upstanding (solver : Solver Rat) : Prop :=
  ∃ kinds offset, solver.Standing ⟨false, false⟩ kinds offset

/-- Whatever is written into a constraint that takes no part, it stays dormant. -/
theorem Standing.dormant_of_revises (standing : solver.Standing ⟨false, false⟩ kinds offset)
    (dormant : Dormant ⟨false, false⟩ kinds solver.symbols.last constraint)
    {written : Constraint Rat} (revises : solver.Revises constraint written) :
    Dormant ⟨false, false⟩ kinds solver.symbols.last written := by
  cases revises with
  | addTerm found coefficient =>
      obtain ⟨external, low⟩ := standing.external_of_findVariable found
      exact dormant.addTerm external low coefficient
  | addConstant constant => exact dormant.addConstant constant
  | addForm found factor => exact dormant.addForm (standing.expression _ _ found) factor
  | relate relation => exact dormant.relate relation
  | erase => exact dormant.erased
  | strengthen strength => exact dormant.with_strength nofun

/-- The offset of a constraint that takes no part can be let go. -/
theorem Standing.unoffset {discipline : Discipline}
    (standing : solver.Standing discipline kinds offset) (idle : solver.constraints.Idle key) :
    solver.Standing discipline kinds (Function.update offset key.id 0) := by
  refine standing.reoffset fun sought constraint found active => Function.update_of_ne ?_ _ _
  intro same
  rw [solver.constraints.get?_congr same] at found
  rw [idle.isActive found] at active
  exact Bool.noConfusion active

end Solver

namespace Action

open Solver

namespace Journal

theorem guards_activate (upstanding : solver.Upstanding) (idle : solver.constraints.Idle key) :
    (activate key).Delivers (Turn.All (Turn.Guarded empties)) solver (fun _ => Upstanding)
      fun _ => Upstanding := by
  obtain ⟨kinds, offset, standing⟩ := upstanding
  cases found : solver.constraints.get? key with
  | none =>
      apply Delivers.reading
      rw [found]
      exact .silent (Meets.refuse ⟨kinds, offset, standing⟩)
  | some constraint =>
      have settled : Function.update offset key.id 0 key.id = 0 := Function.update_self _ _ _
      have inactive := idle.isActive found
      have standing' := standing.unoffset idle
      refine ⟨guarded_activate standing' found inactive settled,
        (yields_activate standing' found inactive settled).mono (fun _ _ activated => ?_)
          fun _ _ rejected => ?_⟩
      · obtain ⟨kinds', after_standing⟩ := activated.standing
        exact ⟨kinds', _, after_standing⟩
      · obtain ⟨kinds', after_standing⟩ := rejected.standing
        exact ⟨kinds', _, after_standing⟩

theorem guards_deactivate (upstanding : solver.Upstanding) (key : Symbol) :
    (deactivate key).Delivers (Turn.All (Turn.Guarded empties)) solver
      (fun _ after => after.Upstanding ∧ after.constraints.Idle key) fun _ => Upstanding := by
  obtain ⟨kinds, offset, standing⟩ := upstanding
  refine ⟨guarded_deactivate standing key, Yields.of_leads (leads_deactivate standing
    (fun steady => nomatch steady) fun _ _ => rfl) fun _ after deactivated => ?_⟩
  refine ⟨⟨kinds, offset, deactivated.toStanding⟩, fun constraint found => ?_⟩
  rw [deactivated.found] at found
  obtain ⟨before, _, rfl⟩ := Option.map_eq_some_iff.mp found
  rfl

theorem guards_reprice (upstanding : solver.Upstanding)
    (found : solver.constraints.get? key = some constraint) (active : constraint.isActive = true)
    {strength : Strength Rat} (same : strength.isRequired = constraint.strength.isRequired) :
    (reprice key constraint strength).Delivers (Turn.All (Turn.Guarded empties)) solver
      (fun _ => Upstanding) fun _ => Upstanding := by
  obtain ⟨kinds, offset, standing⟩ := upstanding
  refine ⟨guarded_reprice standing found active same, Yields.bind_of_leads_three
    (leads_reprice standing found active same nofun) fun after both => ?_⟩
  exact Yields.update ⟨kinds, offset, both.1⟩

end Journal

end Action

open SoftSimplex.Action Solver

/-- While the solver is in good standing, all turns are guarded. -/
theorem warrant_upstanding : Warrant Solver.Upstanding (Turn.All (Turn.Guarded empties)) where
  idle := fun ⟨_, _, standing⟩ found inactive => standing.inactive _ _ found inactive
  recount := fun ⟨kinds, offset, standing⟩ same =>
    ⟨kinds, offset, standing.with_unknowns _ same.unknowns⟩
  create := fun _ ⟨kinds, offset, standing⟩ => ⟨kinds, offset, standing.create nofun rfl⟩
  write := fun ⟨kinds, offset, standing⟩ idle revises =>
    ⟨kinds, offset, standing.rewrite _ (fun _ => idle.isActive) fun constraint found =>
      standing.dormant_of_revises (standing.toCatalogued.dormant found (idle.isActive found))
        (revises constraint found)⟩
  erase := fun ⟨kinds, offset, standing⟩ found inactive =>
    ⟨kinds, offset, standing.erase found inactive⟩
  refresh := fun ⟨kinds, offset, standing⟩ => ⟨kinds, offset, standing.refresh⟩
  activate := Journal.guards_activate
  deactivate := fun key upstanding => Journal.guards_deactivate upstanding key
  reprice := fun upstanding found active soft soft' =>
    Journal.guards_reprice upstanding found active (soft'.trans soft.symm)

/-- All turns of all commands are guarded. -/
theorem Action.Journal.guarded_command {issued : Nat → Prop}
    (settled : solver.Settled ⟨false, false⟩ issued) (asked : Command Rat) :
    (Journal.command asked).Ensures (Turn.All (Turn.Guarded (asked = .reset true))) solver := by
  have upstanding : solver.Upstanding :=
    have ⟨kinds, offset, standing, _⟩ := settled
    ⟨kinds, offset, standing⟩
  apply warrant_upstanding.ensures_command upstanding
  · rintro emptied between ⟨kinds, _, standing⟩
    exact List.forall_mem_singleton.mpr ⟨standing.stands.regular.secluded,
      (between.stands_emptied kinds).regular.secluded, nofun,
      fun _ _ _ _ => Or.inr ⟨rfl, emptied⟩⟩
  · rintro handle target rfl
    apply Warrant.ensures_suggest settled
      (warrant_upstanding.beginEdit handle Strength.medium solver upstanding).1
      (yields_beginEdit settled handle nofun)
    rintro between symbol key state ⟨kinds, offset, standing, editing⟩ found edit
    obtain ⟨⟨constraint, there, pulls, _⟩, _⟩ :=
      editing.pulled symbol key state.target ⟨state, found, edit, rfl⟩
    exact Journal.guarded_moveTarget standing there pulls _ _

/-- In every history in exact arithmetic, at every pause, and before and after every single change
of rows and objective, only rows of external symbols mention external symbols. The primal and the
dual phase let nothing in but slacks and missed amounts. A row of an external symbol goes only while
a marker is taken out, or when everything is emptied on a reset that asks for it. -/
theorem external_symbols_stay_aside {course : Course Rat} (reached : course.Reached ⟨false, false⟩)
    (command : Command Rat) (steps : Nat) :
    course.solver.tableau.Secluded ∧ (course.solver.perform command steps).2.tableau.Secluded ∧
      course.solver.Proceeds (Turn.Guarded (command = .reset true)) command steps := by
  obtain ⟨_, _, standing, _⟩ := reached.settled
  have start := standing.stands.regular.secluded
  have proceeds := proceeds (Journal.guarded_command reached.settled command) steps
  refine ⟨start, ?_, proceeds⟩
  exact proceeds.linked.holds (fun _ _ alike held => held.alike alike) start
    fun turn member => (proceeds.sound turn member).after

/-- The equality that holds a variable at five is withdrawn. -/
def Command.letGo : Command Rat := .withdrawConstraint ⟨1, 0⟩

/-- The variable that was held has a row, and the row goes. -/
theorem five_stays_aside :
    (∃ turn ∈ fixedAtFive.solver.turns .letGo 20,
      (turn.before.form? ⟨1, .external⟩).isSome = true ∧
        (turn.after.form? ⟨1, .external⟩).isSome = false) ∧
      fixedAtFive.solver.tableau.Secluded ∧
        (fixedAtFive.solver.perform .letGo 20).2.tableau.Secluded ∧
          fixedAtFive.solver.Proceeds (Turn.Guarded (Command.letGo = .reset true)) .letGo 20 :=
  ⟨by decide +kernel, external_symbols_stay_aside
    ((Course.Arises.start 0 {}).follow (by decide +kernel)) _ _⟩

end SoftSimplex
