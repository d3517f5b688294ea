import SoftSimplex.Proofs.Solver.Solution

/-!
# Accepted and rejected constraints

Adding a constraint decides whether it can hold together with all live required constraints. A
constraint that contradicts them by its row alone is rejected without a trace. Otherwise the
tableau has been pivoted by the time the contradiction shows. It is brought to an optimum again,
but not always to the one that it came from.
-/

namespace SoftSimplex

variable {discipline : Discipline} {kinds : Nat → Symbol.Kind} {offset : Nat → Rat}
  {solver after : Solver Rat} {issued : Nat → Prop} {key symbol : Symbol}
  {constraint : Constraint Rat} {handle : ConstraintHandle} {course : Course Rat}

namespace Command

open SoftSimplex.Action Solver

/-- Adding a constraint that takes no part yet. -/
theorem yields_add (standing : solver.Standing discipline kinds offset)
    (editing : solver.Editing issued (fun _ => False) offset)
    (found : solver.findConstraint handle = .ok constraint)
    (inactive : constraint.isActive = false) :
    (addConstraint handle).action.Yields solver
      (fun reply after => reply = .done ∧
        Activated discipline offset handle.key constraint solver after)
      (fun reason after => Rejected discipline offset constraint solver reason after) := by
  obtain ⟨_, there⟩ := of_findConstraint found
  have adds : (Action.addConstraint handle : Action Rat Unit).Yields solver
      (fun _ after => Activated discipline offset handle.key constraint solver after)
      (fun reason after => Rejected discipline offset constraint solver reason after) := by
    refine Yields.read_bind ?_
    rw [found]
    refine Yields.demand_bind (fun value is_value => ?_) fun _ declined => nomatch declined
    obtain rfl := Except.ok.inj is_value
    rw [inactive, if_neg Bool.false_ne_true]
    exact yields_activate standing there inactive
      (editing.offset_of_idle there (Or.inl inactive))
  exact Yields.bind adds fun _ _ activated => Yields.pure ⟨rfl, activated⟩

end Command

namespace Solver

/-- An accepted constraint can hold together with the required ones. -/
theorem Activated.exists_met
    (activated : Activated discipline offset key constraint solver after)
    (found : solver.constraints.get? key = some constraint)
    (inactive : constraint.isActive = false) (unmoved : offset key.id = 0)
    (steady : discipline.steady) (priced : discipline.priced) :
    ∃ given, Ledger.Met (constraint :: solver.constraints.ledger offset) given := by
  obtain ⟨kinds', standing⟩ := activated.standing
  obtain ⟨markers, above, there⟩ := activated.found
  have met := standing.met steady priced
  refine ⟨_, List.forall_mem_cons.mpr ⟨?_, fun entry member => met entry ?_⟩⟩
  · have active : ({ constraint with markers } : Constraint Rat).isActive = true :=
      Constraint.isActive_of_ne_zero (by dsimp only; omega)
    have entered := Catalog.mem_ledger there active offset
    rw [unmoved, Constraint.lowered_zero] at entered
    have holds := met { constraint with markers } entered
    exact holds
  · rw [Catalog.mem_ledger_iff] at member ⊢
    obtain ⟨sought, other, was, active, rfl⟩ := member
    refine ⟨sought, other, ?_, active, rfl⟩
    rw [activated.constraints sought fun same => ?_]
    · exact was
    · rw [solver.constraints.get?_congr same, found] at was
      rw [← Option.some.inj was, inactive] at active
      exact Bool.noConfusion active

end Solver

theorem Ledger.met_cons_iff {ledger other : Ledger} {given : Assignment}
    (same : Ledger.Met ledger given ↔ Ledger.Met other given) :
    Ledger.Met (constraint :: ledger) given ↔ Ledger.Met (constraint :: other) given := by
  rw [Ledger.Met, Ledger.Met, List.forall_mem_cons, List.forall_mem_cons]
  exact and_congr_right fun _ => same

/-- In every history in which no strength was negative and no live required equality was taken out,
adding a constraint that takes no part succeeds if and only if some assignment meets it and all live
required constraints. A constraint that may be missed is always accepted, and one that is not
accepted is rejected for contradicting the required ones. -/
theorem add_accepts_iff (reached : course.Reached ⟨true, true⟩)
    (found : course.solver.findConstraint handle = .ok constraint)
    (inactive : constraint.isActive = false) {steps : Nat}
    (final : (course.solver.perform (.addConstraint handle) steps).1.isFinal = true) :
    ((course.solver.perform (.addConstraint handle) steps).1 = .answered .done ↔
        ∃ given, Ledger.Met (constraint :: course.solver.live) given) ∧
      (constraint.strength.isRequired = false →
        (course.solver.perform (.addConstraint handle) steps).1 = .answered .done) ∧
      ((course.solver.perform (.addConstraint handle) steps).1 = .answered .done ∨
        (course.solver.perform (.addConstraint handle) steps).1 = .refused .unsatisfied ∨
        (course.solver.perform (.addConstraint handle) steps).1 = .refused .unbound) := by
  obtain ⟨kinds, offset, standing, editing⟩ := reached.settled
  obtain ⟨_, there⟩ := Solver.of_findConstraint found
  have met_iff : ∀ given, Ledger.Met (constraint :: course.solver.live) given ↔
      Ledger.Met (constraint :: course.solver.constraints.ledger offset) given := fun given =>
    Ledger.met_cons_iff (editing.met_live_iff given)
  -- A constraint that may be missed asks for no more than the present solution gives.
  have soft_met : constraint.strength.isRequired = false →
      Ledger.Met (constraint :: course.solver.live) course.solver.solution := by
    refine fun soft => List.forall_mem_cons.mpr ⟨fun required => ?_,
      (standing.optimal editing rfl rfl).met⟩
    exact Bool.noConfusion (soft.symm.trans required)
  have ends := (Command.yields_add standing editing found inactive).perform steps
  revert ends final
  cases (course.solver.perform (.addConstraint handle) steps).1 with
  | paused => exact fun impossible => Bool.noConfusion impossible
  | answered reply =>
      rintro _ ⟨rfl, activated⟩
      obtain ⟨given, met⟩ := activated.exists_met there inactive
        (editing.offset_of_idle there (Or.inl inactive)) rfl rfl
      exact ⟨iff_of_true rfl ⟨given, (met_iff given).mpr met⟩, fun _ => rfl, Or.inl rfl⟩
  | refused reason =>
      intro _ rejected
      have not_met : ¬ ∃ given, Ledger.Met (constraint :: course.solver.live) given := by
        rintro ⟨given, met⟩
        exact rejected.not_met (Or.inr ⟨rfl, rfl⟩) given ((met_iff given).mp met)
      refine ⟨iff_of_false Ending.noConfusion not_met, fun soft =>
        absurd ⟨_, soft_met soft⟩ not_met, ?_⟩
      rcases rejected.reasons with rfl | rfl
      · exact Or.inr (Or.inl rfl)
      · exact Or.inr (Or.inr rfl)

/-- A variable between two bounds, and a third bound that has not been added yet and is out of
reach. -/
def bounded : Course Rat :=
  (Course.start 0 {}).follow 20 (.createVariable :: Command.bound 1 .atLeast 1 ++
    Command.bound 2 .atMost 10 ++ .refresh :: (Command.bound 3 .atLeast 20).dropLast)

theorem reached_bounded : bounded.Reached ⟨true, true⟩ :=
  (Course.Arises.start 0 {}).follow (by decide +kernel)

/-- The bound that is out of reach. -/
def far : Constraint Rat :=
  (bounded.solver.constraints.get? ⟨3, .external⟩).get (by decide +kernel)

theorem found_far : bounded.solver.findConstraint ⟨3, 0⟩ = .ok far :=
  Solver.findConstraint_of_get? (by decide +kernel) (Option.some_get _).symm

theorem add_far_accepts_iff :
    ((bounded.solver.perform (.addConstraint ⟨3, 0⟩) 20).1 = .answered .done ↔
        ∃ given, Ledger.Met (far :: bounded.solver.live) given) ∧
      (far.strength.isRequired = false →
        (bounded.solver.perform (.addConstraint ⟨3, 0⟩) 20).1 = .answered .done) ∧
      ((bounded.solver.perform (.addConstraint ⟨3, 0⟩) 20).1 = .answered .done ∨
        (bounded.solver.perform (.addConstraint ⟨3, 0⟩) 20).1 = .refused .unsatisfied ∨
        (bounded.solver.perform (.addConstraint ⟨3, 0⟩) 20).1 = .refused .unbound) :=
  add_accepts_iff reached_bounded found_far (by decide +kernel) (by decide +kernel)

namespace Solver

/-- A variable that no live constraint mentions has the solved value zero. -/
theorem Standing.value_quiet (standing : solver.Standing discipline kinds offset)
    (quiet : solver.Quiet symbol.id) {state : Variable Rat}
    (registered : solver.unknowns.get? symbol = some state) : solver.tableau.value symbol = 0 := by
  obtain ⟨proper, external⟩ := standing.registers symbol state registered
  refine Tableau.value_of_not_basic (standing.stands.regular.form?_of_indifferent
    (standing.stands.means.indifferent proper fun entry member => ⟨?_, fun owned =>
      (standing.entries.fit entry member).kind_ne_external owned external⟩))
  obtain ⟨key, constraint, found, active, rfl⟩ :=
    (solver.constraints.mem_ledger_iff offset entry).mp member
  exact quiet key constraint found active

variable {inside : VariableHandle} {state : Variable Rat}

/-- The cached value of a variable after all caches have been refreshed. -/
theorem valueOf_refresh (found : solver.findVariable inside = .ok state) :
    solver.refresh.valueOf inside =
      if solver.Waits inside.symbol.id then solver.tableau.value inside.symbol
      else state.value := by
  obtain ⟨owned, registered⟩ := of_findVariable found
  have refreshed : solver.refresh.unknowns.get? inside.symbol =
      some (if solver.Waits inside.symbol.id then
        state.refreshed (solver.tableau.value inside.symbol) else state) := by
    rw [get?_refresh, registered, Option.map_some]
  have found' : solver.refresh.findVariable inside = .ok _ := findVariable_of_get? owned refreshed
  rw [valueOf, found']
  dsimp only
  split <;> rfl

/-- If a live constraint mentions the variable, this is the solved value. -/
theorem Watched.valueOf_refresh (watched : solver.Watched)
    (found : solver.findVariable inside = .ok state) (busy : ¬ solver.Quiet inside.symbol.id) :
    solver.refresh.valueOf inside = solver.tableau.value inside.symbol := by
  obtain ⟨_, registered⟩ := of_findVariable found
  rw [Solver.valueOf_refresh found]
  split
  · rfl
  · rename_i idle
    have calm : state.isStale = false := by
      rw [← Bool.not_eq_true]
      exact mt (watched.queued inside.symbol state registered) idle
    exact watched.cached inside.symbol state registered calm busy

section Framed

variable (framed : Framed (fun _ => False) solver after)

include framed

theorem Framed.quiet_iff (number : Nat) : after.Quiet number ↔ solver.Quiet number := by
  refine forall₂_congr fun key constraint => ?_
  rw [framed.constraints key id]

/-- A registered variable stays registered. -/
theorem Framed.exists_findVariable (found : solver.findVariable inside = .ok state) :
    ∃ state', after.findVariable inside = .ok state' := by
  obtain ⟨owned, registered⟩ := of_findVariable found
  have outline := framed.outline inside.symbol
  rw [registered, Option.map_some] at outline
  obtain ⟨state', there, _⟩ := Option.map_eq_some_iff.mp outline
  exact ⟨state', findVariable_of_get? (owned.trans framed.identity.symm) there⟩

/-- What is optimal for the one is optimal for the other. -/
theorem Framed.optimal_iff (editing : solver.Editing issued (fun _ => False) offset)
    (given : Assignment) : Ledger.Optimal after.live given ↔ Ledger.Optimal solver.live given := by
  have editing' := editing.unchanged framed
  have perm : (solver.constraints.ledger offset).Perm (after.constraints.ledger offset) :=
    Catalog.ledger_perm_of_listing
      (Catalog.listing_perm fun key => (framed.constraints key id).symm) offset
  rw [editing.optimal_live_iff, editing'.optimal_live_iff]
  exact Ledger.optimal_perm perm.symm given

end Framed

section Rejected

variable {reason : Refusal} (standing : solver.Standing discipline kinds offset)
  (rejected : Rejected discipline offset constraint solver reason after)

include rejected

include standing

/-- After a rejection a variable is refreshed to the value that it would have been refreshed to
before, provided that its solved value is the same. -/
theorem Rejected.valueOf_refresh_iff (found : solver.findVariable inside = .ok state) :
    after.refresh.valueOf inside = solver.refresh.valueOf inside ↔
      after.tableau.value inside.symbol = solver.tableau.value inside.symbol := by
  obtain ⟨kinds', standing'⟩ := rejected.standing
  obtain ⟨state', found'⟩ := rejected.toFramed.exists_findVariable found
  obtain ⟨_, registered⟩ := of_findVariable found
  obtain ⟨_, registered'⟩ := of_findVariable found'
  by_cases quiet : solver.Quiet inside.symbol.id
  · have before := standing.value_quiet quiet registered
    have now := standing'.value_quiet ((rejected.toFramed.quiet_iff _).mpr quiet) registered'
    obtain ⟨same, waits⟩ := rejected.quiet inside.symbol state registered quiet
    rw [registered', registered] at same
    rw [valueOf_refresh found', valueOf_refresh found, now, before, Option.some.inj same]
    simp only [waits]
  · rw [standing'.watched.valueOf_refresh found' (mt (rejected.toFramed.quiet_iff _).mp quiet),
      standing.watched.valueOf_refresh found quiet]

omit standing in
/-- After a rejection the solved values are optimal again if the discipline promises what it
takes. -/
theorem Rejected.optimal (editing : solver.Editing issued (fun _ => False) offset)
    (steady : discipline.steady) (priced : discipline.priced) :
    Ledger.Optimal solver.live after.solution := by
  obtain ⟨kinds', standing'⟩ := rejected.standing
  exact (rejected.toFramed.optimal_iff editing _).mp
    (standing'.optimal (editing.unchanged rejected.toFramed) steady priced)

end Rejected

end Solver

/-- A rejected constraint keeps taking no part, and a registered variable is refreshed to the value
that it would have been refreshed to before if and only if its solved value is the same. It is the
same for every variable if the constraint contradicts the required ones by its row alone. It is the
same for every variable on which all optimal assignments agree if no strength was negative and no
live required equality was taken out. -/
theorem rejected_add_keeps_values (reached : course.Reached discipline)
    (found : course.solver.findConstraint handle = .ok constraint)
    (inactive : constraint.isActive = false) {steps : Nat} {reason : Refusal}
    (refused : (course.solver.perform (.addConstraint handle) steps).1.refusal? = some reason) :
    (course.solver.perform (.addConstraint handle) steps).2.findConstraint handle =
        .ok constraint ∧
      ∀ inside state, course.solver.findVariable inside = .ok state →
        ((course.solver.perform (.addConstraint handle) steps).2.refresh.valueOf inside =
            course.solver.refresh.valueOf inside ↔
          (course.solver.perform (.addConstraint handle) steps).2.tableau.value inside.symbol =
            course.solver.tableau.value inside.symbol) ∧
        (reason = .unsatisfied →
          (course.solver.perform (.addConstraint handle) steps).2.refresh.valueOf inside =
            course.solver.refresh.valueOf inside) ∧
        (discipline.steady → discipline.priced →
          (∀ first second, Ledger.Optimal course.solver.live first →
            Ledger.Optimal course.solver.live second → first inside.id = second inside.id) →
          (course.solver.perform (.addConstraint handle) steps).2.refresh.valueOf inside =
            course.solver.refresh.valueOf inside) := by
  obtain ⟨kinds, offset, standing, editing⟩ := reached.settled
  obtain ⟨owned, there⟩ := Solver.of_findConstraint found
  have ends := (Command.yields_add standing editing found inactive).perform steps
  revert ends refused
  cases course.solver.perform (.addConstraint handle) steps with
  | mk ending after =>
      cases ending with
      | paused => exact fun impossible => absurd impossible.symm (Option.some_ne_none _)
      | answered reply => exact fun impossible => absurd impossible.symm (Option.some_ne_none _)
      | refused reason' =>
          intro same rejected
          obtain rfl := Option.some.inj same
          refine ⟨Solver.findConstraint_of_get? (owned.trans rejected.identity.symm)
            ((rejected.constraints handle.key id).trans there), fun inside state registered => ?_⟩
          have kept := rejected.valueOf_refresh_iff standing registered
          refine ⟨kept, fun unsatisfied => kept.mpr (rejected.unmoved unsatisfied _),
            fun steady priced agree => kept.mpr ?_⟩
          exact agree _ _ (rejected.optimal editing steady priced)
            (standing.optimal editing steady priced)

theorem rejected_far_keeps_values :
    (bounded.solver.perform (.addConstraint ⟨3, 0⟩) 20).2.findConstraint ⟨3, 0⟩ = .ok far ∧
      ∀ inside state, bounded.solver.findVariable inside = .ok state →
        ((bounded.solver.perform (.addConstraint ⟨3, 0⟩) 20).2.refresh.valueOf inside =
            bounded.solver.refresh.valueOf inside ↔
          (bounded.solver.perform (.addConstraint ⟨3, 0⟩) 20).2.tableau.value inside.symbol =
            bounded.solver.tableau.value inside.symbol) ∧
        (Refusal.unbound = .unsatisfied →
          (bounded.solver.perform (.addConstraint ⟨3, 0⟩) 20).2.refresh.valueOf inside =
            bounded.solver.refresh.valueOf inside) ∧
        ((⟨true, true⟩ : Discipline).steady → (⟨true, true⟩ : Discipline).priced →
          (∀ first second, Ledger.Optimal bounded.solver.live first →
            Ledger.Optimal bounded.solver.live second → first inside.id = second inside.id) →
          (bounded.solver.perform (.addConstraint ⟨3, 0⟩) 20).2.refresh.valueOf inside =
            bounded.solver.refresh.valueOf inside) :=
  rejected_add_keeps_values reached_bounded found_far (by decide +kernel) (by decide +kernel)

/-- Every value between the bounds is optimal. The variable is at the lower bound before the third
bound is rejected, and at the upper bound afterwards. -/
theorem rejected_add_moves_value :
    ¬ ∀ course : Course Rat, course.Reached ⟨false, false⟩ → ∀ handle constraint steps,
      course.solver.findConstraint handle = .ok constraint → constraint.isActive = false →
        ((course.solver.perform (.addConstraint handle) steps).1.refusal? = some .unsatisfied ∨
          (course.solver.perform (.addConstraint handle) steps).1.refusal? = some .unbound) →
        ∀ inside state, course.solver.findVariable inside = .ok state →
          (course.solver.perform (.addConstraint handle) steps).2.refresh.valueOf inside =
            course.solver.refresh.valueOf inside := by
  intro always
  have reached : bounded.Reached ⟨false, false⟩ :=
    (Course.Arises.start 0 {}).follow (by decide +kernel)
  have registered : bounded.solver.unknowns.get? ⟨1, .external⟩ =
      some ((bounded.solver.unknowns.get? ⟨1, .external⟩).get (by decide +kernel)) :=
    (Option.some_get _).symm
  have kept := always bounded reached ⟨3, 0⟩ far 20 found_far (by decide +kernel)
    (Or.inr (by decide +kernel)) ⟨1, 0⟩ _ (Solver.findVariable_of_get? (by decide +kernel) registered)
  exact absurd kept (by decide +kernel)

end SoftSimplex
