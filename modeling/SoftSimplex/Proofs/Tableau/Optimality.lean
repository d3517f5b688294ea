import SoftSimplex.Proofs.Tableau.Feasibility

/-!
# Optimal tableaus

If no symbol of the objective makes it smaller, the solved values are the cheapest admissible
solution. The dual phase keeps the objective so, because the symbol that enters costs the least
for what it lifts, and a row that nothing lifts would leave no admissible solution at all. When
no row waits any more, the tableau is feasible.
-/

namespace SoftSimplex

theorem LinearForm.Lowest.coefficient_nonneg {kinds : Nat → Symbol.Kind}
    {form : LinearForm Rat} (lowest : form.Lowest) (spanned : form.Over (Symbol.Proper kinds))
    {symbol : Symbol} (proper : symbol.Proper kinds) (not_dummy : symbol.isDummy = false) :
    0 ≤ form.coefficient symbol := by
  by_cases mentioned : form.mentions symbol = true
  · obtain ⟨term, member, same, is_coefficient⟩ := LinearForm.exists_term_of_mentions mentioned
    rw [← is_coefficient]
    refine lowest term member ?_
    rw [(spanned term member).eq_of_id_eq proper same]
    exact not_dummy
  · rw [Bool.not_eq_true] at mentioned
    rw [LinearForm.coefficient_of_not_mentions mentioned]

theorem Symbol.under_unit_nonneg (symbol : Symbol) (id : Nat) :
    0 ≤ symbol.under (Assignment.unit id) := by
  unfold under Assignment.unit
  split
  · exact le_rfl
  · split <;> norm_num

namespace Tableau

variable {kinds : Nat → Symbol.Kind} {tableau base other : Tableau Rat}
  {allowed : Symbol → Prop}

/-- The solved values cost no more than any admissible solution. -/
theorem Regular.constant_le_objective (regular : tableau.Regular kinds)
    (lowest : tableau.objective.Lowest) {assignment : Assignment}
    (admissible : assignment.Admissible kinds) :
    tableau.objective.constant ≤ tableau.objective.eval assignment :=
  lowest.constant_le regular.objective_settled.proper regular.objective_confined admissible

/-- A negative row that nothing lifts is negative in every admissible solution. -/
theorem Regular.no_admissible_of_stuck (regular : tableau.Regular kinds) {leaving : Symbol}
    (proper : leaving.Proper kinds) (internal : leaving.isExternal = false)
    {form : LinearForm Rat} (found : tableau.form? leaving = some form)
    (negative : form.constant < 0)
    (missing : ∀ term ∈ form.terms, term.1.isDummy = false → term.2 ≤ 0)
    {assignment : Assignment} (admissible : assignment.Admissible kinds) :
    ¬ Solves assignment tableau := by
  intro solves
  have settled := regular.settled_of_form? found
  have confined := regular.confined _ (regular.mem_equations proper found) internal
  have opposite : (form.scale (-1)).Lowest := by
    intro term member not_dummy
    obtain ⟨before, inside, rfl⟩ := (form.mem_terms_scale_iff (-1) term).mp member
    have falls := missing before inside not_dummy
    change 0 ≤ before.2 * -1
    linarith
  have below := opposite.constant_le (settled.proper.scale (-1)) (confined.scale (-1)) admissible
  rw [LinearForm.eval_scale] at below
  change form.constant * -1 ≤ _ at below
  have value := solves.under_eq found
  rw [Symbol.under_of_ne_zero proper.1] at value
  have nonnegative : 0 ≤ assignment leaving.id := by
    by_cases is_dummy : leaving.isDummy = true
    · exact ((admissible leaving proper).dummy is_dummy).ge
    · rw [Bool.not_eq_true] at is_dummy
      exact (admissible leaving proper).restricted
        (Symbol.isRestricted_of_internal proper.1 internal is_dummy)
  linarith

/-- The symbol that lifts a row at the least cost keeps the objective at its least. -/
theorem Exchange.lowest_lifted {form : LinearForm Rat} {entering leaving : Symbol}
    (exchange : base.Exchange kinds form entering leaving)
    (chosen : base.lifting? form = some entering) (lowest : base.objective.Lowest) :
    (base.pivot form entering leaving).objective.Lowest := by
  obtain ⟨coefficient, member, entering_free, rises, cheapest⟩ := of_lifting?_eq_some chosen
  have is_coefficient : form.coefficient entering = coefficient :=
    LinearForm.coefficient_of_mem member
  have settled := exchange.regular.objective_settled
  have cost_nonneg : 0 ≤ base.objective.coefficient entering :=
    lowest.coefficient_nonneg settled.proper exchange.proper entering_free
  intro term inside not_dummy
  rw [objective_pivot] at inside
  obtain ⟨free, apart⟩ := exchange.settled_substitute settled term inside
  have old_nonneg := lowest.coefficient_nonneg settled.proper free.1 not_dummy
  have unit_nonneg := Symbol.under_unit_nonneg leaving term.1.id
  rw [← LinearForm.coefficient_of_mem inside,
    LinearForm.coefficient_substitute _ _ _ free.1.1,
    exchange.coefficient_definition free.1.1 apart, is_coefficient,
    Symbol.under_unit_of_ne (Ne.symm apart), sub_zero, ← mul_div_assoc]
  rcases le_or_gt (form.coefficient term.1) 0 with falls | lifts
  · have product := mul_nonneg cost_nonneg (sub_nonneg.mpr (falls.trans unit_nonneg))
    exact add_nonneg old_nonneg (div_nonneg product rises.le)
  · have mentioned := LinearForm.mentions_of_coefficient_ne_zero lifts.ne'
    obtain ⟨lift, lift_inside, same, is_lift⟩ := LinearForm.exists_term_of_mentions mentioned
    have equal := (exchange.settled.proper lift lift_inside).eq_of_id_eq free.1 same
    have ratio := cheapest lift lift_inside (equal ▸ not_dummy) (is_lift ▸ lifts)
    rw [equal, is_lift, div_le_div_iff₀ rises lifts] at ratio
    have gain := mul_nonneg cost_nonneg unit_nonneg
    rw [← sub_neg_eq_add, sub_nonneg, ← neg_div, div_le_iff₀ rises]
    linarith

theorem Heeded.calmed {spared : LinearForm Rat → Prop} (heeded : tableau.Heeded spared)
    {leaving : Symbol} {waiting : List Symbol} {form : LinearForm Rat}
    (found : tableau.form? leaving = some form) (fine : 0 ≤ form.constant) :
    (tableau.calmed leaving waiting).Heeded spared := by
  intro entry member internal negative
  rcases entries_calmed member with ⟨inside, _⟩ | ⟨same, _, before, inside, named, is_form⟩
  · exact heeded entry inside internal negative
  · have row : (before.1, before.2.form) ∈ tableau.equations := List.mem_map_of_mem inside
    have present := form?_of_mem row
    rw [named, is_form, tableau.form?_congr same, found] at present
    have is_row : form = entry.2.form := Option.some.inj present
    rw [← is_row] at negative
    exact absurd negative (not_lt.mpr fine)

theorem Heeded.calmed_discard {spared : LinearForm Rat → Prop} (heeded : tableau.Heeded spared)
    (leaving : Symbol) (waiting : List Symbol) :
    ((tableau.calmed leaving waiting).discard leaving).Heeded spared := by
  intro entry member internal negative
  obtain ⟨inside, apart⟩ := entries_discard member
  rcases entries_calmed inside with ⟨before, _⟩ | ⟨same, _⟩
  · exact heeded entry before internal negative
  · exact absurd same apart

/-- When nothing is queued, the rows below zero are spared ones, external ones apart. -/
theorem Heeded.spared {spared : LinearForm Rat → Prop} (heeded : tableau.Heeded spared)
    (tidy : tableau.Tidy kinds) (idle : tableau.agenda.repairs = [])
    {row : Symbol × LinearForm Rat} (member : row ∈ tableau.equations)
    (internal : row.1.isExternal = false) (negative : row.2.constant < 0) : spared row.2 := by
  obtain ⟨entry, inside, rfl⟩ := List.mem_map.mp member
  refine (heeded entry inside internal negative).resolve_left ?_
  rw [tidy.isQueued_eq_false idle inside]
  exact Bool.false_ne_true

/-- What a step of the dual phase keeps: the tableau is equivalent to where the phase started, every
row below zero is flagged or spared, and the objective is at its least. -/
structure Striving (kinds : Nat → Symbol.Kind) (spared : LinearForm Rat → Prop)
    (start now : Tableau Rat) : Prop where
  equivalent : start.Equivalent kinds now
  tidy : now.Tidy kinds
  heeded : now.Heeded spared
  lowest : now.objective.Lowest

/-- A step keeps all this if the rows that nothing lifts are spared. -/
theorem Striving.step {spared : LinearForm Rat → Prop} {start now following : Tableau Rat}
    (striving : Striving kinds spared start now)
    (stuck_spared : ∀ leaving form, leaving.Proper kinds → leaving.isExternal = false →
      now.form? leaving = some form → form.constant < 0 →
        (∀ term ∈ form.terms, term.1.isDummy = false → term.2 ≤ 0) → spared form)
    (moves : now.repairStep = .next following) : Striving kinds spared start following := by
  have repairing := of_repairStep_eq_next moves
  have regular := striving.equivalent.regular
  obtain ⟨equivalent, tidy⟩ := repairing.equivalent regular striving.tidy
  have reached := striving.equivalent.trans equivalent
  cases repairing with
  | gone leaving waiting queue absent result =>
      rw [result] at reached tidy ⊢
      exact ⟨reached, tidy, striving.heeded, striving.lowest⟩
  | calm leaving waiting form queue found fine result =>
      rw [result] at reached tidy ⊢
      exact ⟨reached, tidy, striving.heeded.calmed found fine, striving.lowest⟩
  | lifted leaving waiting form queue found negative entering chosen result =>
      rw [result] at reached tidy ⊢
      obtain ⟨proper, _⟩ := striving.tidy.queue leaving (queue ▸ List.mem_cons_self)
      have alike := now.alike_calmed leaving waiting
      have exchange := (alike.regular regular).exchange_lifted proper
        ((alike.form? leaving).trans found) chosen
      obtain ⟨coefficient, member, _, rises, _⟩ := of_lifting?_eq_some chosen
      -- The entering symbol takes the value that brings the negative row to zero.
      have growth : 0 ≤ (form.isolate entering leaving).constant := by
        rw [exchange.constant_definition, LinearForm.coefficient_of_mem member]
        exact div_nonneg (neg_nonneg.mpr negative.le) rises.le
      refine ⟨reached, tidy, ?_, ?_⟩
      · exact ((striving.heeded.calmed_discard leaving waiting).eliminate entering _).put
          (Or.inl growth)
      · refine exchange.lowest_lifted chosen ?_
        rw [objective_discard]
        exact striving.lowest
  | stuck leaving waiting form queue found negative missing result =>
      rw [result] at reached tidy ⊢
      obtain ⟨proper, internal⟩ := striving.tidy.queue leaving (queue ▸ List.mem_cons_self)
      have spares := stuck_spared leaving form proper internal found negative
        fun term member => of_lifting?_eq_none missing member
      refine ⟨reached, tidy, (striving.heeded.calmed_discard leaving waiting).put (Or.inr spares), ?_⟩
      rw [objective_put, objective_discard]
      exact striving.lowest

/-- A step of the dual phase keeps the rows of dummies. -/
theorem Repairing.grounded (repairing : tableau.Repairing other) (regular : tableau.Regular kinds)
    (tidy : tableau.Tidy kinds) (grounded : tableau.Grounded allowed) :
    other.Grounded allowed := by
  cases repairing with
  | gone leaving waiting queue absent result =>
      rw [result]
      exact grounded
  | calm leaving waiting form queue found fine result =>
      rw [result]
      exact grounded.alike (tableau.alike_calmed leaving waiting)
  | lifted leaving waiting form queue found negative entering chosen result =>
      rw [result]
      obtain ⟨proper, _⟩ := tidy.queue leaving (queue ▸ List.mem_cons_self)
      have alike := tableau.alike_calmed leaving waiting
      have exchange := (alike.regular regular).exchange_lifted proper
        ((alike.form? leaving).trans found) chosen
      obtain ⟨_, _, not_dummy, _⟩ := of_lifting?_eq_some chosen
      exact ((grounded.alike alike).discard leaving).pivot exchange not_dummy
  | stuck leaving waiting form queue found negative missing result =>
      rw [result]
      obtain ⟨proper, _⟩ := tidy.queue leaving (queue ▸ List.mem_cons_self)
      have alike := tableau.alike_calmed leaving waiting
      exact fun row member => grounded.alike alike row
        ((alike.regular regular).mem_of_mem_put_discard proper
          ((alike.form? leaving).trans found) member)

/-- What every step of the dual phase keeps: the tableau is equivalent to where the phase
started, every row below zero is flagged, and the objective is at its least. -/
structure Mending (kinds : Nat → Symbol.Kind) (allowed : Symbol → Prop)
    (start now : Tableau Rat) : Prop where
  equivalent : start.Equivalent kinds now
  tidy : now.Tidy kinds
  alert : now.Alert
  grounded : now.Grounded allowed
  lowest : now.objective.Lowest

/-- A step of the dual phase keeps all this as long as there is an admissible solution. -/
theorem Mending.step {start now following : Tableau Rat}
    (mending : Mending kinds allowed start now) {point : Assignment}
    (admissible : point.Admissible kinds) (solves : Solves point start)
    (moves : now.repairStep = .next following) : Mending kinds allowed start following := by
  have regular := mending.equivalent.regular
  have solves_now := (mending.equivalent.solves_iff point).mpr solves
  have striving : Striving kinds (fun _ => False) start now :=
    ⟨mending.equivalent, mending.tidy, mending.alert.heeded _, mending.lowest⟩
  -- A negative row that nothing can raise contradicts the admissible solution.
  have later := striving.step (fun leaving form proper internal found negative missing =>
    regular.no_admissible_of_stuck proper internal found negative missing admissible solves_now)
    moves
  have grounded := (of_repairStep_eq_next moves).grounded regular mending.tidy mending.grounded
  exact ⟨later.equivalent, later.tidy, later.heeded.alert, grounded, later.lowest⟩

/-- Without negative rows that are not flagged, and with an admissible solution, the dual phase
ends feasible and keeps the objective at its least. -/
theorem repair_optimal (regular : tableau.Regular kinds) (tidy : tableau.Tidy kinds)
    (alert : tableau.Alert) (grounded : tableau.Grounded allowed)
    (lowest : tableau.objective.Lowest) {point : Assignment}
    (admissible : point.Admissible kinds) (solves : Solves point tableau) {steps : Nat}
    (finished : (tableau.repair steps).result? = some ()) :
    (tableau.repair steps).state.Feasible ∧ (tableau.repair steps).state.Grounded allowed ∧
      (tableau.repair steps).state.objective.Lowest := by
  have keeps : ∀ now following : Tableau Rat, Mending kinds allowed tableau now →
      now.repairStep = .next following → Mending kinds allowed tableau following :=
    fun _ _ mending moves => mending.step admissible solves moves
  have mending := iterate_invariant keeps steps tableau
    ⟨.refl regular, tidy, alert, grounded, lowest⟩
  have idle := repairs_eq_nil_of_halt (step_state_of_result steps tableau () finished)
  refine ⟨fun row member restricted => ?_, mending.grounded, mending.lowest⟩
  exact mending.alert.constant_nonneg mending.tidy idle member
    (Symbol.isExternal_eq_false_of_isRestricted restricted)

/-- The rows of dummies are kept by the dual phase in any case. -/
theorem repair_grounded (regular : tableau.Regular kinds) (tidy : tableau.Tidy kinds)
    (grounded : tableau.Grounded allowed) (steps : Nat) :
    (tableau.repair steps).state.Grounded allowed := by
  have keeps : ∀ now following : Tableau Rat,
      now.Regular kinds ∧ now.Tidy kinds ∧ now.Grounded allowed →
        now.repairStep = .next following →
          following.Regular kinds ∧ following.Tidy kinds ∧ following.Grounded allowed := by
    rintro now following ⟨regular, tidy, grounded⟩ moves
    have repairing := of_repairStep_eq_next moves
    obtain ⟨equivalent, tidy_there⟩ := repairing.equivalent regular tidy
    exact ⟨equivalent.regular, tidy_there, repairing.grounded regular tidy grounded⟩
  exact (iterate_invariant keeps steps tableau ⟨regular, tidy, grounded⟩).2.2

end Tableau

end SoftSimplex
