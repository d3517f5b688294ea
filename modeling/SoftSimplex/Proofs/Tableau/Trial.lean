import SoftSimplex.Proofs.Tableau.Entry

/-!
# Trying a constraint

A draft without a symbol to be solved for is filed under an artificial symbol, whose value is then
lowered. The artificial symbol is made free and forgotten, which enters the constraint in any
case. If its value reached zero, the tableau stays feasible. If not, the required entries cannot be
met, and moving the marker by what remains gives a poised solution.
-/

namespace SoftSimplex.Tableau

variable {kinds : Nat → Symbol.Kind} {discipline : Discipline} {ledger : Ledger}
  {constraint : Constraint Rat} {base after : Tableau Rat} {form : LinearForm Rat}
  {artificial : Symbol} {now : Descent Rat} {reached : Bool}

/-- A draft that no symbol can be solved for, and a slack that nothing speaks of. -/
structure Trial (kinds : Nat → Symbol.Kind) (ledger : Ledger) (constraint : Constraint Rat)
    (base : Tableau Rat) (form : LinearForm Rat) (artificial : Symbol) : Prop where
  draft : base.Draft kinds ledger constraint form
  confined : form.Over fun symbol => symbol.isExternal = false
  others : form.hasOnlyDummies = false
  proper : artificial.Proper kinds
  kind : artificial.kind = .slack
  avoided : ∀ entry ∈ constraint :: ledger, entry.Avoids artificial.id

namespace Trial

theorem restricted (trial : Trial kinds ledger constraint base form artificial) :
    artificial.isRestricted = true :=
  (Symbol.isRestricted_eq_true_iff _).mpr ⟨trial.proper.1, Or.inl trial.kind⟩

theorem internal (trial : Trial kinds ledger constraint base form artificial) :
    artificial.isExternal = false :=
  Symbol.isExternal_eq_false_of_isRestricted trial.restricted

theorem apart_marker (trial : Trial kinds ledger constraint base form artificial) :
    artificial.id ≠ constraint.markers.marker.id := fun same =>
  (trial.avoided constraint List.mem_cons_self).2 ⟨trial.proper.1, Or.inl same.symm⟩

theorem posed (trial : Trial kinds ledger constraint base form artificial) :
    base.Posed kinds form artificial := by
  have stands := trial.draft.stands
  have indifferent := stands.means.indifferent trial.proper.1 fun entry member =>
    trial.avoided entry (List.mem_cons_of_mem _ member)
  exact ⟨stands.regular, trial.draft.settled, trial.confined, trial.proper,
    stands.regular.foreign_of_indifferent trial.proper.1 indifferent,
    stands.regular.objective_mentions_eq_false indifferent stands.prices trial.proper.1
      (fun entry member => (trial.avoided entry member).2) artificial.kind,
    trial.draft.mentions_eq_false trial.proper.1 trial.avoided⟩

theorem feasible_put (trial : Trial kinds ledger constraint base form artificial)
    (feasible : base.Feasible) : (base.put artificial form).Feasible := by
  intro row member restricted
  rcases trial.posed.mem_equations_put member with rfl | inside
  · exact trial.draft.nonneg
  · exact feasible row inside restricted

/-- No row of a dummy mentions the marker. -/
theorem grounded_put (trial : Trial kinds ledger constraint base form artificial)
    (grounded : base.Grounded fun _ => True) :
    (base.put artificial form).Grounded fun symbol =>
      symbol.id ≠ constraint.markers.marker.id := by
  intro row member is_dummy
  rcases trial.posed.mem_equations_put member with rfl | inside
  · rw [Symbol.isDummy_eq_false_of_isRestricted trial.restricted] at is_dummy
    exact Bool.noConfusion is_dummy
  · exact trial.draft.grounded_marker grounded row inside is_dummy

theorem tidy_put (trial : Trial kinds ledger constraint base form artificial) :
    (base.put artificial form).Tidy kinds :=
  trial.draft.stands.tidy.put artificial form

theorem settled_put (trial : Trial kinds ledger constraint base form artificial) :
    (base.put artificial form).Settled kinds form :=
  trial.posed.settle trial.draft.settled trial.posed.apart

/-- The tableau with the artificial symbol does not depend on what nothing speaks of. -/
theorem indifferent_put (trial : Trial kinds ledger constraint base form artificial) {id : Nat}
    (proper : id ≠ 0) (apart : id ≠ artificial.id)
    (avoided : ∀ entry ∈ constraint :: ledger, entry.Avoids id) :
    (base.put artificial form).Indifferent id := by
  intro assignment number solves
  have indifferent := trial.draft.stands.means.indifferent proper fun entry member =>
    avoided entry (List.mem_cons_of_mem _ member)
  have unmentioned : form.mentions ⟨id, .external⟩ = false :=
    trial.draft.mentions_eq_false proper avoided
  have unmoved := (LinearForm.over_ne_of_not_mentions unmentioned).eval_set assignment number
  rw [trial.posed.solves_put_iff] at solves ⊢
  exact ⟨indifferent assignment number solves.1,
    (Symbol.under_set_of_ne apart.symm assignment number).trans (solves.2.trans unmoved.symm)⟩

end Trial

/-- What has come of the attempt to lower the value of the artificial symbol. -/
structure Tried (discipline : Discipline) (kinds : Nat → Symbol.Kind) (ledger : Ledger)
    (constraint : Constraint Rat) (base : Tableau Rat) (form : LinearForm Rat)
    (artificial : Symbol) (now : Descent Rat) (reached : Bool) : Prop where
  trial : Trial kinds ledger constraint base form artificial
  sound : Descent.Sound kinds ⟨base.put artificial form, some form⟩ now
  grounded : discipline.steady →
    now.tableau.Grounded fun symbol => symbol.id ≠ constraint.markers.marker.id
  feasible : discipline.steady → discipline.priced → now.tableau.Feasible
  lowest : discipline.steady → discipline.priced → reached = true ∧ now.goal.Lowest

/-- The primal phase tries the draft. -/
theorem Trial.tried (trial : Trial kinds ledger constraint base form artificial)
    (upright : base.Upright discipline) {steps : Nat}
    (finished : ((base.put artificial form).descend steps (some form)).result? = some reached) :
    Tried discipline kinds ledger constraint base form artificial
      ((base.put artificial form).descend steps (some form)).state reached := by
  have regular := trial.posed.regular_put
  have settled : (base.put artificial form).Settled kinds
      ((some form).getD (base.put artificial form).objective) := trial.settled_put
  have confined : ((some form).getD (base.put artificial form).objective).Over
      fun symbol => symbol.isExternal = false := trial.confined
  refine ⟨trial, descend_sound regular trial.tidy_put settled confined steps, fun steady => ?_,
    fun steady is_priced => ?_, fun steady is_priced => ?_⟩
  · exact descend_grounded regular trial.tidy_put settled confined
      (trial.grounded_put (upright.grounded steady)) steps
  · exact descend_feasible regular trial.tidy_put settled confined
      (trial.feasible_put (upright.feasible steady is_priced)) steps
  · have bounded : ∀ assignment : Assignment, assignment.Admissible kinds →
        Solves assignment (base.put artificial form) → 0 ≤ form.eval assignment := by
      intro assignment admissible solves
      have value := ((trial.posed.solves_put_iff assignment).mp solves).2
      rw [← value, Symbol.under_of_ne_zero trial.proper.1]
      exact (admissible artificial trial.proper).restricted trial.restricted
    exact descend_lowest regular trial.tidy_put settled confined
      (trial.feasible_put (upright.feasible steady is_priced))
      (trial.grounded_put (upright.grounded steady)) bounded finished

/-- Nothing reads what was touched. -/
theorem Tried.told (tried : Tried discipline kinds ledger constraint base form artificial now
    reached) :
    Tried discipline kinds ledger constraint base form artificial
      ⟨now.tableau.told, now.goal?⟩ reached := by
  have alike := now.tableau.alike_told
  obtain ⟨trial, sound, grounded, feasible, lowest⟩ := tried
  refine ⟨trial, ⟨sound.equivalent.trans (alike.equivalent sound.equivalent.regular),
    sound.tidy.told, fun symbol proper is_dummy => ?_, sound.goal_isSome,
    (alike.settled_iff _).mpr sound.settled, sound.confined, sound.eval_goal⟩,
    fun steady => (grounded steady).alike alike,
    fun steady is_priced => (feasible steady is_priced).alike alike, lowest⟩
  rw [alike.form?]
  exact sound.dummies symbol proper is_dummy

/-- The artificial symbol has no row, or it has been exchanged for a restricted symbol of its
row. -/
inductive Frees (artificial : Symbol) (before after : Tableau Rat) : Prop where
  | free (absent : before.form? artificial = none) (result : after = before)
  | exchanged (remaining : LinearForm Rat) (entering : Symbol)
      (found : before.form? artificial = some remaining)
      (chosen : remaining.restricted? = some entering)
      (result : after = (before.discard artificial).pivot remaining entering artificial)

namespace Tried

/-- A row of the artificial symbol has a restricted symbol. -/
theorem exists_entering (tried : Tried discipline kinds ledger constraint base form artificial now
    reached) {remaining : LinearForm Rat} (found : now.tableau.form? artificial = some remaining) :
    remaining.isConstant = false ∧ ∃ entering, remaining.restricted? = some entering := by
  obtain ⟨term, member, not_dummy⟩ :=
    LinearForm.exists_of_not_hasOnlyDummies tried.trial.others
  obtain ⟨other, inside, restricted⟩ := tried.trial.posed.exists_restricted tried.sound member
    not_dummy found tried.trial.internal
  constructor
  · by_contra constant
    rw [Bool.not_eq_false] at constant
    have empty : remaining.terms.length = 0 := by
      rw [LinearForm.terms, ← SlotTable.size_eq]
      exact eq_of_beq constant
    rw [List.eq_nil_of_length_eq_zero empty] at inside
    exact List.not_mem_nil inside
  · cases chosen : remaining.restricted? with
    | some entering => exact ⟨entering, rfl⟩
    | none =>
        have none_restricted := LinearForm.of_restricted?_eq_none chosen other inside
        exact Bool.noConfusion (restricted.symm.trans none_restricted)

/-- The freed tableau is equivalent to the one that was tried. -/
theorem equivalent (tried : Tried discipline kinds ledger constraint base form artificial now
    reached) (frees : Frees artificial now.tableau after) :
    (base.put artificial form).Equivalent kinds after ∧ after.Tidy kinds ∧
      after.form? artificial = none := by
  have regular := tried.sound.equivalent.regular
  cases frees with
  | free absent result =>
      rw [result]
      exact ⟨tried.sound.equivalent, tried.sound.tidy, absent⟩
  | exchanged remaining entering found chosen result =>
      obtain ⟨exchange, internal⟩ := tried.trial.posed.exchange_artificial tried.sound.equivalent
        tried.trial.internal found chosen
      rw [result]
      refine ⟨tried.sound.equivalent.trans (exchange.equivalent found (Or.inr internal)),
        (tried.sound.tidy.discard artificial).pivot (regular.discard artificial) _ _ _, ?_⟩
      rw [form?_pivot_discard_eq_none_iff]
      exact ⟨exchange.leaving_ne, Or.inl rfl⟩

/-- Forgetting the artificial symbol enters the constraint. -/
theorem stands (tried : Tried discipline kinds ledger constraint base form artificial now reached)
    (frees : Frees artificial now.tableau after) :
    (after.forget artificial).Stands kinds (constraint :: ledger) (constraint :: ledger) := by
  obtain ⟨equivalent, tidy, free⟩ := tried.equivalent frees
  have posed := tried.trial.posed
  have draft := tried.trial.draft
  have solves_iff := posed.solves_forget_iff equivalent free
  refine ⟨equivalent.regular.forget artificial, tidy.forget artificial, fun assignment => ?_, ?_⟩
  · rw [solves_iff, List.forall_mem_cons, ← draft.stands.means assignment, and_comm]
    exact and_congr_left fun solves => draft.eval_eq_zero_iff solves
  · obtain ⟨drift, is_price⟩ := draft.stands.prices
    refine ⟨drift, fun assignment solves => ?_⟩
    rw [posed.eval_objective_forget equivalent free solves]
    exact is_price assignment ((solves_iff assignment).mp solves).1

/-- The value of the artificial symbol is the constant of the goal. -/
theorem goal_constant (tried : Tried discipline kinds ledger constraint base form artificial now
    reached) : now.goal.constant = now.tableau.complete Assignment.zero artificial.id := by
  have regular := tried.sound.equivalent.regular
  have solves := regular.solves_complete Assignment.zero
  have solves_put := (tried.sound.equivalent.solves_iff _).mp solves
  have value := ((tried.trial.posed.solves_put_iff _).mp solves_put).2
  rw [Symbol.under_of_ne_zero tried.trial.proper.1] at value
  rw [value, ← LinearForm.eval_zero now.goal, ← tried.sound.settled.eval_complete]
  exact tried.sound.eval_goal _ solves_put

/-- No row of a dummy has come to mention the marker. -/
theorem grounded_forget (tried : Tried discipline kinds ledger constraint base form artificial now
    reached) (frees : Frees artificial now.tableau after) (steady : discipline.steady) :
    (after.forget artificial).Grounded fun symbol =>
      symbol.id ≠ constraint.markers.marker.id := by
  refine Grounded.forget ?_ artificial
  cases frees with
  | free absent result =>
      rw [result]
      exact tried.grounded steady
  | exchanged remaining entering found chosen result =>
      obtain ⟨exchange, _⟩ := tried.trial.posed.exchange_artificial tried.sound.equivalent
        tried.trial.internal found chosen
      rw [result]
      exact ((tried.grounded steady).discard artificial).pivot exchange
        (Symbol.isDummy_eq_false_of_isRestricted (LinearForm.of_restricted?_eq_some chosen).1)

/-- If the value of the artificial symbol is zero, the tableau stays upright. -/
theorem upright (tried : Tried discipline kinds ledger constraint base form artificial now reached)
    (frees : Frees artificial now.tableau after) (vanishes : now.goal.constant = 0) :
    (after.forget artificial).Upright discipline := by
  refine ⟨fun steady => (tried.grounded_forget frees steady).mono fun _ _ => trivial,
    fun steady is_priced => Feasible.forget ?_ artificial⟩
  have feasible := tried.feasible steady is_priced
  cases frees with
  | free absent result =>
      rw [result]
      exact feasible
  | exchanged remaining entering found chosen result =>
      obtain ⟨exchange, _⟩ := tried.trial.posed.exchange_artificial tried.sound.equivalent
        tried.trial.internal found chosen
      have at_zero := tried.goal_constant
      rw [vanishes, complete_of_form? found, LinearForm.eval_zero] at at_zero
      rw [result]
      exact exchange.feasible_degenerate (feasible.discard artificial) at_zero.symm

/-- If the value of the artificial symbol stays positive, the required entries cannot be met. -/
theorem not_met (tried : Tried discipline kinds ledger constraint base form artificial now reached)
    (steady : discipline.steady) (is_priced : discipline.priced)
    (failed : ¬ (reached = true ∧ now.goal.constant = 0)) (given : Assignment) :
    ¬ Ledger.Met (constraint :: ledger) given := by
  intro met
  have draft := tried.trial.draft
  have posed := tried.trial.posed
  have proper := tried.trial.proper
  obtain ⟨is_reached, lowest⟩ := tried.lowest steady is_priced
  obtain ⟨point, admissible, solves, vanishes⟩ := draft.exists_vanishing met
  let cleared := point.set artificial.id 0
  have form_cleared : form.eval cleared = 0 :=
    ((LinearForm.over_ne_of_not_mentions posed.apart).eval_set _ _).trans vanishes
  have solves_put : Solves cleared (base.put artificial form) := by
    rw [posed.solves_put_iff, posed.foreign.solves_set_iff, form_cleared,
      Symbol.under_of_ne_zero proper.1]
    exact ⟨solves, Assignment.set_same _ _ _⟩
  have admissible_cleared : cleared.Admissible kinds :=
    Constraint.Fit.admissible_set admissible proper artificial.allows_zero
  have below := lowest.constant_le tried.sound.settled.proper tried.sound.confined
    admissible_cleared
  have same : now.goal.eval cleared = form.eval cleared := tried.sound.eval_goal _ solves_put
  rw [same, form_cleared] at below
  have above : 0 ≤ now.goal.constant := by
    rw [tried.goal_constant]
    exact (((tried.feasible steady is_priced).admissible (tried.grounded steady)
      tried.sound.equivalent.regular) artificial proper).restricted tried.trial.restricted
  exact failed ⟨is_reached, le_antisymm below above⟩

/-- A move of the marker makes up for whatever value the artificial symbol has. -/
theorem exists_poised (tried : Tried discipline kinds ledger constraint base form artificial now
    reached) (frees : Frees artificial now.tableau after) (steady : discipline.steady)
    (is_priced : discipline.priced) :
    ∃ point, (after.forget artificial).Poised kinds constraint.markers.marker point := by
  obtain ⟨equivalent, _, free⟩ := tried.equivalent frees
  have posed := tried.trial.posed
  have draft := tried.trial.draft
  have proper := tried.trial.proper
  have marker_proper := draft.entries.head.markers.marker_proper
  have regular := tried.sound.equivalent.regular
  have feasible := tried.feasible steady is_priced
  let solution := now.tableau.complete Assignment.zero
  have solves_put : Solves solution (base.put artificial form) :=
    (tried.sound.equivalent.solves_iff _).mp (regular.solves_complete Assignment.zero)
  obtain ⟨solves, value⟩ := (posed.solves_put_iff _).mp solves_put
  rw [Symbol.under_of_ne_zero proper.1] at value
  have nonzero := draft.settled.reduced.coefficient_ne_zero draft.mentions_marker
  -- Clearing the artificial symbol breaks the row it stood for, and the marker mends it.
  let cleared := solution.set artificial.id 0
  let point := cleared.set constraint.markers.marker.id (cleared constraint.markers.marker.id -
    solution artificial.id / form.coefficient constraint.markers.marker)
  have form_point : form.eval point = 0 := by
    rw [form.eval_set marker_proper.1,
      (LinearForm.over_ne_of_not_mentions posed.apart).eval_set, ← value]
    field_simp
    ring
  have elsewhere : ∀ id, id ≠ constraint.markers.marker.id → id ≠ artificial.id →
      point id = solution id := fun id not_marker not_artificial =>
    (Assignment.set_of_ne _ not_marker _).trans (Assignment.set_of_ne _ not_artificial _)
  have at_artificial : point artificial.id = 0 :=
    (Assignment.set_of_ne _ tried.trial.apart_marker _).trans (Assignment.set_same _ _ _)
  refine ⟨point, ?_, fun symbol symbol_free not_marker => ?_,
    fun symbol symbol_proper restricted not_marker => ?_⟩
  · rw [posed.solves_forget_iff equivalent free, draft.foreign_marker.solves_set_iff,
      posed.foreign.solves_set_iff]
    exact ⟨solves, form_point⟩
  · by_cases is_artificial : symbol.id = artificial.id
    · rw [is_artificial, at_artificial]
    · rw [elsewhere _ not_marker is_artificial]
      have absent := symbol_free.2
      rw [form?_forget, Option.map_eq_none_iff] at absent
      refine complete_of_free ?_ Assignment.zero
      cases frees with
      | free _ result => rwa [result] at absent
      | exchanged remaining entering found chosen result =>
          rw [result, form?_pivot_discard_eq_none_iff] at absent
          exact absent.2.resolve_left is_artificial
  · by_cases is_artificial : symbol.id = artificial.id
    · rw [is_artificial, at_artificial]
    · rw [elsewhere _ not_marker is_artificial]
      exact (feasible.poised regular constraint.markers.marker).restricted symbol symbol_proper
        restricted not_marker

end Tried

end SoftSimplex.Tableau
