import SoftSimplex.Proofs.Solver.Addition

/-!
# Withdrawing what was added

Adding a constraint pivots to a new optimum, and withdrawing it lets some row leave and pivots from
there. The basis need not be the one of before, but the live constraints are, and the solver is in
good standing again. This holds for required equalities too: the row that a constraint enters with
keeps its marker out of all rows of dummies, and both phases leave these rows alone, so the marker
that was just drawn can always be dropped.
-/

namespace SoftSimplex

variable {discipline : Discipline} {kinds : Nat → Symbol.Kind} {offset : Nat → Rat}
  {solver between after : Solver Rat} {issued : Nat → Prop} {symbol : Symbol}
  {constraint : Constraint Rat} {handle : ConstraintHandle} {course : Course Rat}

theorem Constraint.holds_set
    (unmentioned : constraint.expression.Over fun other => other.id ≠ symbol.id)
    (given : Assignment) (number : Rat) :
    constraint.Holds (given.set symbol.id number) ↔ constraint.Holds given := by
  unfold Holds
  rw [unmentioned.eval_set]

theorem Constraint.cost_set
    (unmentioned : constraint.expression.Over fun other => other.id ≠ symbol.id)
    (given : Assignment) (number : Rat) :
    constraint.cost (given.set symbol.id number) = constraint.cost given := by
  unfold cost violation
  rw [unmentioned.eval_set]

/-- What no entry mentions may have any value. -/
theorem Ledger.Optimal.set {ledger : Ledger} {given : Assignment} (optimal : ledger.Optimal given)
    (unmentioned : ∀ entry ∈ ledger, entry.expression.Over fun other => other.id ≠ symbol.id)
    (number : Rat) : ledger.Optimal (given.set symbol.id number) := by
  have same_cost : ledger.cost (given.set symbol.id number) = ledger.cost given :=
    congrArg List.sum (List.map_congr_left fun entry member =>
      Constraint.cost_set (unmentioned entry member) given number)
  refine ⟨fun entry member required => ?_, fun other met => ?_⟩
  · rw [Constraint.holds_set (unmentioned entry member)]
    exact optimal.met entry member required
  · rw [same_cost]
    exact optimal.least other met

namespace Solver

/-- A live constraint mentions every variable on which all optimal assignments agree. -/
theorem Standing.not_quiet_of_agree (standing : solver.Standing discipline kinds offset)
    (editing : solver.Editing issued (fun _ => False) offset) (steady : discipline.steady)
    (priced : discipline.priced)
    (agree : ∀ first second, Ledger.Optimal solver.live first →
      Ledger.Optimal solver.live second → first symbol.id = second symbol.id) :
    ¬ solver.Quiet symbol.id := by
  intro quiet
  have optimal := standing.optimal editing steady priced
  have moved : Ledger.Optimal solver.live
      (solver.solution.set symbol.id (solver.solution symbol.id + 1)) := by
    rw [editing.optimal_live_iff] at optimal ⊢
    refine optimal.set (fun entry member => ?_) _
    obtain ⟨key, constraint, found, active, rfl⟩ :=
      (solver.constraints.mem_ledger_iff offset entry).mp member
    exact quiet key constraint found active
  have same := agree _ _ optimal moved
  rw [Assignment.set_same] at same
  linarith

/-- Between two solvers in good standing with the same constraints, a variable on which all optimal
assignments agree is refreshed to the same value. -/
theorem Framed.valueOf_refresh_of_agree (framed : Framed (fun _ => False) solver after)
    (standing : solver.Standing discipline kinds offset) {kinds' : Nat → Symbol.Kind}
    (standing' : after.Standing discipline kinds' offset)
    (editing : solver.Editing issued (fun _ => False) offset) (steady : discipline.steady)
    (priced : discipline.priced) {inside : VariableHandle} {state : Variable Rat}
    (registered : solver.findVariable inside = .ok state)
    (agree : ∀ first second, Ledger.Optimal solver.live first →
      Ledger.Optimal solver.live second → first inside.id = second inside.id) :
    after.refresh.valueOf inside = solver.refresh.valueOf inside := by
  obtain ⟨state', registered'⟩ := framed.exists_findVariable registered
  have busy : ¬ solver.Quiet inside.symbol.id :=
    standing.not_quiet_of_agree editing steady priced agree
  have optimal' : Ledger.Optimal solver.live after.solution :=
    (framed.optimal_iff editing _).mp
      (standing'.optimal (editing.unchanged framed) steady priced)
  rw [standing'.watched.valueOf_refresh registered' (mt (framed.quiet_iff _).mp busy),
    standing.watched.valueOf_refresh registered busy]
  exact agree _ _ optimal' (standing.optimal editing steady priced)

/-- Taking out what has just been let in. -/
theorem Activated.framed_of_deactivated (standing : solver.Standing discipline kinds offset)
    (found : solver.constraints.get? handle.key = some constraint)
    (inactive : constraint.isActive = false)
    (activated : Activated discipline offset handle.key constraint solver between)
    {kinds' : Nat → Symbol.Kind}
    (deactivated : Action.Deactivated discipline kinds' offset handle.key between after) :
    Framed (fun _ => False) solver after := by
  have through := activated.toFramed.trans deactivated.toFramed
  refine ⟨through.identity, through.lastConstraint, through.autoUpdate, through.outline,
    fun sought _ => ?_⟩
  by_cases same : sought.id = handle.key.id
  · obtain ⟨markers, _, there⟩ := activated.found
    rw [after.constraints.get?_congr same, solver.constraints.get?_congr same,
      deactivated.found, there, found, Option.map_some]
    -- The constraint had no markers before, and it has none now.
    rw [← standing.inactive handle.key constraint found inactive]
  · exact through.constraints sought same

end Solver

namespace Command

open SoftSimplex.Action Solver

/-- A constraint that has just been added can be withdrawn, whatever its relation and strength. -/
theorem leads_withdraw (standing : solver.Standing discipline kinds offset)
    (found : solver.findConstraint handle = .ok constraint)
    (inactive : constraint.isActive = false)
    (activated : Activated discipline offset handle.key constraint solver between) :
    (withdrawConstraint handle).action.Leads between fun _ after =>
      Framed (fun _ => False) solver after ∧ ∃ kinds, after.Standing discipline kinds offset := by
  obtain ⟨kinds', standing'⟩ := activated.standing
  obtain ⟨owned, there⟩ := of_findConstraint found
  obtain ⟨markers, _, added⟩ := activated.found
  have found' : between.findConstraint handle = .ok { constraint with markers } :=
    findConstraint_of_get? (owned.trans activated.identity.symm) added
  have withdraws : (Action.withdrawConstraint handle : Action Rat Unit).Leads between
      fun _ after => Deactivated discipline kinds' offset handle.key between after := by
    refine Yields.read_bind ?_
    rw [found']
    exact leads_deactivate_parted standing'
      (fun steady state is_state _ => activated.parted steady state is_state) fun _ _ => rfl
  refine Yields.bind withdraws fun _ after deactivated => Yields.pure ?_
  exact ⟨activated.framed_of_deactivated standing there inactive deactivated,
    kinds', deactivated.toStanding⟩

end Command

/-- In every history in which no strength was negative and no live required equality was taken out,
withdrawing a constraint that has just been added, of any relation and strength, gives back every
value that was determined: a variable on which all optimal assignments agree is refreshed to the
value it had been refreshed to before. The constraint is as it was. -/
theorem withdraw_undoes_add (reached : course.Reached ⟨true, true⟩)
    (found : course.solver.findConstraint handle = .ok constraint)
    (inactive : constraint.isActive = false) {steps steps' : Nat} {reply : Reply} {ending : Ending}
    (adds : course.solver.perform (.addConstraint handle) steps = (.answered reply, between))
    (withdraws : between.perform (.withdrawConstraint handle) steps' = (ending, after))
    (final : ending.isFinal = true) :
    after.findConstraint handle = .ok constraint ∧
      ∀ inside state, course.solver.findVariable inside = .ok state →
        (∀ first second, Ledger.Optimal course.solver.live first →
          Ledger.Optimal course.solver.live second → first inside.id = second inside.id) →
        after.refresh.valueOf inside = course.solver.refresh.valueOf inside := by
  obtain ⟨kinds, offset, standing, editing⟩ := reached.settled
  obtain ⟨owned, there⟩ := Solver.of_findConstraint found
  have activated := (Command.yields_add standing editing found inactive).perform steps
  rw [adds] at activated
  have withdrawn := (Command.leads_withdraw standing found inactive activated.2).perform steps'
  rw [withdraws] at withdrawn
  cases ending with
  | paused => exact Bool.noConfusion final
  | refused reason => exact withdrawn.elim
  | answered reply' =>
      obtain ⟨framed, kinds', standing'⟩ := withdrawn
      refine ⟨Solver.findConstraint_of_get? (owned.trans framed.identity.symm)
        ((framed.constraints handle.key id).trans there), fun inside state registered agree => ?_⟩
      exact framed.valueOf_refresh_of_agree standing standing' editing rfl rfl registered agree

/-- A variable that is held at five, and the same equality once more, which has not been added. -/
def fixedAtFive : Course Rat :=
  (Course.start 0 {}).follow 20 (.createVariable :: Command.bound 1 .equal 5 ++
    (Command.bound 2 .equal 5).dropLast)

theorem reached_fixedAtFive : fixedAtFive.Reached ⟨true, true⟩ :=
  (Course.Arises.start 0 {}).follow (by decide +kernel)

/-- The equality that has not been added. -/
def again : Constraint Rat :=
  (fixedAtFive.solver.constraints.get? ⟨2, .external⟩).get (by decide +kernel)

theorem found_again : fixedAtFive.solver.findConstraint ⟨2, 0⟩ = .ok again :=
  Solver.findConstraint_of_get? (by decide +kernel) (Option.some_get _).symm

theorem five_of_optimal {given : Assignment}
    (optimal : Ledger.Optimal fixedAtFive.solver.live given) : given 1 = 5 := by
  have live : ∃ entry ∈ fixedAtFive.solver.live, entry.strength.isRequired = true ∧
      entry.relation = some .equal ∧ entry.expression.constant = 5 ∧
        entry.expression.terms = [(⟨1, .external⟩, -1)] := by decide +kernel
  obtain ⟨entry, member, required, relation, constant, terms⟩ := live
  have holds := optimal.met entry member required
  rw [Constraint.Holds, relation] at holds
  dsimp only at holds
  rw [LinearForm.eval_eq, constant, terms] at holds
  simp only [List.map_cons, List.map_nil, List.sum_cons, List.sum_nil, add_zero,
    Symbol.under_of_ne_zero (show (⟨1, .external⟩ : Symbol).id ≠ 0 from one_ne_zero)] at holds
  linarith

/-- The solver after the equality has been added once more. -/
def doubled : Solver Rat := (fixedAtFive.solver.perform (.addConstraint ⟨2, 0⟩) 20).2

/-- The equality that is added and withdrawn follows from the one that is live, and the variable
stays at five. -/
theorem withdraw_undoes_add_at_five :
    (doubled.perform (.withdrawConstraint ⟨2, 0⟩) 20).2.findConstraint ⟨2, 0⟩ = .ok again ∧
      (doubled.perform (.withdrawConstraint ⟨2, 0⟩) 20).2.refresh.valueOf ⟨1, 0⟩ = 5 := by
  have accepted : (fixedAtFive.solver.perform (.addConstraint ⟨2, 0⟩) 20).1 = .answered .done := by
    decide +kernel
  have final : (doubled.perform (.withdrawConstraint ⟨2, 0⟩) 20).1.isFinal = true := by
    decide +kernel
  obtain ⟨detached, kept⟩ := withdraw_undoes_add reached_fixedAtFive found_again (by decide +kernel)
    (Prod.ext accepted rfl) rfl final
  have registered : fixedAtFive.solver.findVariable ⟨1, 0⟩ =
      .ok ((fixedAtFive.solver.unknowns.get? ⟨1, .external⟩).get (by decide +kernel)) :=
    Solver.findVariable_of_get? (by decide +kernel) (Option.some_get _).symm
  refine ⟨detached, (kept ⟨1, 0⟩ _ registered fun first second here there => ?_).trans
    (by decide +kernel)⟩
  exact (five_of_optimal here).trans (five_of_optimal there).symm

end SoftSimplex
