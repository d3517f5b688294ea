import Mathlib.Algebra.Order.BigOperators.Group.List
import Mathlib.Algebra.Order.Field.Basic
import SoftSimplex.Proofs.Tableau.Phase

/-!
# Feasible tableaus

An assignment is admissible if no restricted symbol is negative and every dummy is zero. In a
feasible and grounded tableau the solved values are admissible. The primal phase stays feasible
because the row that leaves is the first to reach zero, and it ends at the least value of its goal
because a goal that is bounded below on admissible solutions cannot fall for ever.
-/

namespace SoftSimplex

/-- A number that the symbol may have. -/
structure Symbol.Allows (symbol : Symbol) (number : Rat) : Prop where
  restricted : symbol.isRestricted = true → 0 ≤ number
  dummy : symbol.isDummy = true → number = 0

/-- Every proper symbol has a number that it may have. -/
def Assignment.Admissible (kinds : Nat → Symbol.Kind) (assignment : Assignment) : Prop :=
  ∀ symbol : Symbol, symbol.Proper kinds → symbol.Allows (assignment symbol.id)

theorem Symbol.allows_zero (symbol : Symbol) : symbol.Allows 0 :=
  ⟨fun _ => le_rfl, fun _ => rfl⟩

/-- A proper symbol that is neither external nor a dummy is restricted. -/
theorem Symbol.isRestricted_of_internal {symbol : Symbol} (present : symbol.id ≠ 0)
    (internal : symbol.isExternal = false) (not_dummy : symbol.isDummy = false) :
    symbol.isRestricted = true := by
  rw [isRestricted_eq_true_iff]
  refine ⟨present, ?_⟩
  cases kind : symbol.kind with
  | external => simp [isExternal, isOf, isNull, present, kind] at internal
  | slack => exact Or.inl rfl
  | error => exact Or.inr rfl
  | dummy => simp [isDummy, isOf, isNull, present, kind] at not_dummy

theorem Symbol.isDummy_eq_false_of_isRestricted {symbol : Symbol}
    (restricted : symbol.isRestricted = true) : symbol.isDummy = false := by
  rw [isRestricted_eq_true_iff] at restricted
  rcases restricted.2 with kind | kind <;> simp [isDummy, isOf, kind]

theorem Symbol.isExternal_eq_false_of_isRestricted {symbol : Symbol}
    (restricted : symbol.isRestricted = true) : symbol.isExternal = false := by
  rw [isRestricted_eq_true_iff] at restricted
  rcases restricted.2 with kind | kind <;> simp [isExternal, isOf, kind]

theorem Symbol.isExternal_eq_false_of_isDummy {symbol : Symbol} (is_dummy : symbol.isDummy = true) :
    symbol.isExternal = false := by
  rw [isDummy, isOf_eq_true_iff] at is_dummy
  simp [isExternal, isOf, is_dummy.2]

namespace LinearForm

theorem constant_substitute (form : LinearForm Rat) (symbol : Symbol)
    (definition : LinearForm Rat) :
    (form.substitute symbol definition).constant =
      form.constant + form.coefficient symbol * definition.constant := by
  have at_zero := form.eval_substitute symbol definition Assignment.zero
  rw [eval_zero, eval_zero, eval_zero, Symbol.under_zero, sub_zero] at at_zero
  exact at_zero

theorem coefficient_substitute (form : LinearForm Rat) (symbol : Symbol)
    (definition : LinearForm Rat) {other : Symbol} (proper : other.id ≠ 0) :
    (form.substitute symbol definition).coefficient other = form.coefficient other +
      form.coefficient symbol *
        (definition.coefficient other - symbol.under (Assignment.unit other.id)) := by
  rw [coefficient_eq _ proper, eval_substitute, constant_substitute, coefficient_eq form proper,
    coefficient_eq definition proper]
  ring

/-- No symbol, dummies apart, makes the form smaller when it grows. -/
def Lowest (form : LinearForm Rat) : Prop :=
  ∀ term ∈ form.terms, term.1.isDummy = false → 0 ≤ term.2

/-- On admissible assignments such a form is not below its constant. -/
theorem Lowest.constant_le {kinds : Nat → Symbol.Kind} {form : LinearForm Rat}
    (lowest : form.Lowest) (proper : form.Over (Symbol.Proper kinds))
    (confined : form.Over fun symbol => symbol.isExternal = false) {assignment : Assignment}
    (admissible : assignment.Admissible kinds) : form.constant ≤ form.eval assignment := by
  rw [eval_eq]
  refine le_add_of_nonneg_right (List.sum_nonneg fun product member => ?_)
  obtain ⟨term, inside, rfl⟩ := List.mem_map.mp member
  have here := proper term inside
  have allowed := admissible term.1 here
  rw [Symbol.under_of_ne_zero here.1]
  by_cases is_dummy : term.1.isDummy = true
  · rw [allowed.dummy is_dummy, mul_zero]
  · rw [Bool.not_eq_true] at is_dummy
    refine mul_nonneg (lowest term inside is_dummy) (allowed.restricted ?_)
    exact Symbol.isRestricted_of_internal here.1 (confined term inside) is_dummy

end LinearForm

namespace Tableau

variable {kinds : Nat → Symbol.Kind} {tableau base : Tableau Rat} {allowed : Symbol → Prop}

theorem Exchange.constant_definition {form : LinearForm Rat} {entering leaving : Symbol}
    (exchange : base.Exchange kinds form entering leaving) :
    (form.isolate entering leaving).constant = -form.constant / form.coefficient entering :=
  LinearForm.constant_isolate exchange.coefficient_ne_zero leaving

theorem Exchange.coefficient_definition {form : LinearForm Rat} {entering leaving : Symbol}
    (exchange : base.Exchange kinds form entering leaving) {symbol : Symbol}
    (proper : symbol.id ≠ 0) (apart : symbol.id ≠ entering.id) :
    (form.isolate entering leaving).coefficient symbol =
      (leaving.under (Assignment.unit symbol.id) - form.coefficient symbol) /
        form.coefficient entering :=
  LinearForm.coefficient_isolate exchange.coefficient_ne_zero leaving proper apart

/-! ## Feasible and grounded tableaus -/

/-- No row of a restricted symbol is below zero. -/
def Feasible (tableau : Tableau Rat) : Prop :=
  ∀ row ∈ tableau.equations, row.1.isRestricted = true → 0 ≤ row.2.constant

/-- Rows of dummies are at zero and depend on dummies of the class alone. -/
def Grounded (tableau : Tableau Rat) (allowed : Symbol → Prop) : Prop :=
  ∀ row ∈ tableau.equations, row.1.isDummy = true → row.2.constant = 0 ∧
    row.2.Over fun symbol => symbol.isDummy = true ∧ allowed symbol

namespace Grounded

theorem mono (grounded : tableau.Grounded allowed) {wider : Symbol → Prop}
    (within : ∀ symbol, allowed symbol → wider symbol) : tableau.Grounded wider :=
  fun row member is_dummy => ⟨(grounded row member is_dummy).1,
    (grounded row member is_dummy).2.mono fun symbol both => ⟨both.1, within symbol both.2⟩⟩

/-- A symbol other than a dummy is not mentioned in the rows of dummies. -/
theorem mentions_eq_false (grounded : tableau.Grounded allowed) (regular : tableau.Regular kinds)
    {symbol : Symbol} (proper : symbol.Proper kinds) (not_dummy : symbol.isDummy = false)
    {row : Symbol × LinearForm Rat} (member : row ∈ tableau.equations)
    (is_dummy : row.1.isDummy = true) : row.2.mentions symbol = false := by
  rw [LinearForm.mentions_eq_false_iff]
  intro term inside same
  have equal := ((regular.settled row member).proper term inside).eq_of_id_eq proper same
  have dummy := ((grounded row member is_dummy).2 term inside).1
  rw [equal, not_dummy] at dummy
  exact Bool.noConfusion dummy

theorem avoiding (grounded : tableau.Grounded allowed) (regular : tableau.Regular kinds)
    {symbol : Symbol} (proper : symbol.Proper kinds) (not_dummy : symbol.isDummy = false) :
    tableau.Grounded fun other => other.id ≠ symbol.id :=
  fun row member is_dummy => ⟨(grounded row member is_dummy).1,
    fun term inside => ⟨((grounded row member is_dummy).2 term inside).1,
      LinearForm.over_ne_of_not_mentions
        (grounded.mentions_eq_false regular proper not_dummy member is_dummy) term inside⟩⟩

theorem discard (grounded : tableau.Grounded allowed) (symbol : Symbol) :
    (tableau.discard symbol).Grounded allowed :=
  fun row member => grounded row ((tableau.mem_equations_discard_iff symbol row).mp member).1

theorem alike {other : Tableau Rat} (grounded : tableau.Grounded allowed)
    (alike : tableau.Alike other) : other.Grounded allowed :=
  fun row member => grounded row (alike.equations ▸ member)

/-- Eliminating a symbol that rows of dummies do not mention leaves these rows alone. -/
theorem eliminate (grounded : tableau.Grounded allowed) {symbol : Symbol}
    (apart : ∀ row ∈ tableau.equations, row.1.isDummy = true → row.2.mentions symbol = false)
    (definition : LinearForm Rat) :
    (tableau.eliminate symbol definition).Grounded allowed := by
  intro row member is_dummy
  rw [equations_eliminate] at member
  obtain ⟨before, inside, rfl⟩ := List.mem_map.mp member
  dsimp only at is_dummy ⊢
  rw [LinearForm.substitute_of_not_mentions (apart before inside is_dummy)]
  exact grounded before inside is_dummy

/-- An exchange for a symbol other than a dummy leaves the rows of dummies alone. -/
theorem pivot (grounded : base.Grounded allowed) {form : LinearForm Rat}
    {entering leaving : Symbol} (exchange : base.Exchange kinds form entering leaving)
    (not_dummy : entering.isDummy = false) :
    (base.pivot form entering leaving).Grounded allowed := by
  intro row member is_dummy
  rcases mem_equations_pivot exchange.entering_free member with rfl | ⟨before, inside, rfl⟩
  · rw [not_dummy] at is_dummy
    exact Bool.noConfusion is_dummy
  · dsimp only at is_dummy ⊢
    rw [LinearForm.substitute_of_not_mentions (grounded.mentions_eq_false exchange.regular
      exchange.proper not_dummy inside is_dummy)]
    exact grounded before inside is_dummy

end Grounded

/-- Completing an assignment is admissible if the free symbols and the rows are. -/
theorem Regular.admissible_complete (regular : tableau.Regular kinds) {given : Assignment}
    (free : ∀ symbol, tableau.Free kinds symbol → symbol.Allows (given symbol.id))
    (rows : ∀ row ∈ tableau.equations, row.1.Allows (row.2.eval given)) :
    (tableau.complete given).Admissible kinds := by
  intro symbol proper
  cases found : tableau.form? symbol with
  | none =>
      rw [complete_of_free found]
      exact free symbol ⟨proper, found⟩
  | some form =>
      rw [complete_of_form? found]
      exact rows _ (regular.mem_equations proper found)

/-- The solved values of a feasible and grounded tableau are admissible. -/
theorem Feasible.admissible (feasible : tableau.Feasible) (grounded : tableau.Grounded allowed)
    (regular : tableau.Regular kinds) :
    (tableau.complete Assignment.zero).Admissible kinds := by
  refine regular.admissible_complete (fun symbol _ => symbol.allows_zero) fun row member => ?_
  rw [LinearForm.eval_zero]
  exact ⟨feasible row member, fun is_dummy => (grounded row member is_dummy).1⟩

/-- While a symbol that no restricted row falls with grows, the solution stays admissible. -/
theorem Feasible.admissible_growing (feasible : tableau.Feasible)
    (grounded : tableau.Grounded allowed) (regular : tableau.Regular kinds) {entering : Symbol}
    (proper : entering.Proper kinds) (not_dummy : entering.isDummy = false)
    (rises : ∀ row ∈ tableau.equations, row.1.isRestricted = true →
      0 ≤ row.2.coefficient entering) {growth : Rat} (nonnegative : 0 ≤ growth) :
    (tableau.complete (Assignment.zero.set entering.id growth)).Admissible kinds := by
  refine regular.admissible_complete (fun symbol free => ?_) fun row member => ?_
  · by_cases same : symbol.id = entering.id
    · rw [free.1.eq_of_id_eq proper same, Assignment.set_same]
      refine ⟨fun _ => nonnegative, fun is_dummy => ?_⟩
      rw [not_dummy] at is_dummy
      exact Bool.noConfusion is_dummy
    · rw [Assignment.set_of_ne _ same]
      exact symbol.allows_zero
  · rw [row.2.eval_set proper.1, LinearForm.eval_zero]
    refine ⟨fun restricted => ?_, fun is_dummy => ?_⟩
    · have product := mul_nonneg (rises row member restricted) nonnegative
      have constant := feasible row member restricted
      simp only [Assignment.zero, sub_zero]
      linarith
    · rw [LinearForm.coefficient_of_not_mentions (grounded.mentions_eq_false regular proper
        not_dummy member is_dummy), (grounded row member is_dummy).1]
      ring

section Leaving

variable {entering leaving : Symbol} {form : LinearForm Rat}
  (left : tableau.leaving? entering = some leaving) (found : tableau.form? leaving = some form)
  (nonzero : form.coefficient entering ≠ 0)

include left found nonzero

/-- The row that leaves is restricted and falls when the entering symbol grows. -/
theorem falls_of_leaving? : (leaving, form) ∈ tableau.equations ∧ leaving.isRestricted = true ∧
    form.coefficient entering < 0 := by
  obtain ⟨form', coefficient, member, restricted, mentioned, falls, _⟩ := of_leaving?_eq_some left
  obtain rfl : form' = form := form_eq_of_form? member found
  obtain rfl := LinearForm.coefficient_of_eq_some mentioned
  exact ⟨member, restricted, lt_of_le_of_ne falls nonzero⟩

/-- Over a feasible tableau the entering symbol grows until the row that leaves is at zero. -/
theorem Feasible.growth_nonneg (feasible : tableau.Feasible) :
    0 ≤ (form.isolate entering leaving).constant := by
  obtain ⟨member, restricted, falls⟩ := falls_of_leaving? left found nonzero
  rw [LinearForm.constant_isolate nonzero]
  exact div_nonneg_of_nonpos (neg_nonpos.mpr (feasible _ member restricted)) falls.le

/-- An exchange with the row that is the first to reach zero keeps the tableau feasible. -/
theorem Feasible.exchange (feasible : tableau.Feasible) (free : tableau.form? entering = none) :
    ((tableau.discard leaving).pivot form entering leaving).Feasible := by
  obtain ⟨form', coefficient, member, _, mentioned, _, tightest⟩ := of_leaving?_eq_some left
  obtain rfl : form' = form := form_eq_of_form? member found
  obtain rfl := LinearForm.coefficient_of_eq_some mentioned
  have growth := feasible.growth_nonneg left found nonzero
  intro row inside restricted_row
  rcases mem_equations_pivot (free_discard free) inside with rfl | ⟨before, earlier, rfl⟩
  · exact growth
  · obtain ⟨in_tableau, _⟩ := (mem_equations_discard_iff _ _ _).mp earlier
    have nonnegative := feasible before in_tableau restricted_row
    rw [LinearForm.constant_substitute]
    rcases lt_or_ge (before.2.coefficient entering) 0 with row_falls | row_rises
    · have mentions := LinearForm.mentions_of_coefficient_ne_zero row_falls.ne
      have ratio := tightest before in_tableau _ restricted_row
        (LinearForm.coefficient?_of_mentions mentions) row_falls.le
      rw [le_div_iff_of_neg row_falls] at ratio
      rw [LinearForm.constant_isolate nonzero]
      linarith
    · have product := mul_nonneg row_rises growth
      linarith

end Leaving

/-! ## The primal phase -/

namespace Descent

variable {start now following : Descent Rat}

/-- A pivot of the primal phase keeps the tableau feasible and grounded. -/
theorem Sound.feasible_step (sound : Sound kinds start now) (feasible : now.tableau.Feasible)
    (moves : now.step = .next following) : following.tableau.Feasible := by
  obtain ⟨entering, leaving, form, chosen, left, found, rfl⟩ := of_step_eq_next moves
  obtain ⟨exchange, _⟩ := sound.exchange chosen left found
  obtain ⟨amount, in_goal, _⟩ := LinearForm.of_entering?_eq_some chosen
  exact feasible.exchange left found exchange.coefficient_ne_zero (sound.settled.free _ in_goal).2

theorem Sound.grounded_step (sound : Sound kinds start now)
    (grounded : now.tableau.Grounded allowed) (moves : now.step = .next following) :
    following.tableau.Grounded allowed := by
  obtain ⟨entering, leaving, form, chosen, left, found, rfl⟩ := of_step_eq_next moves
  obtain ⟨exchange, _, not_dummy, _⟩ := sound.exchange chosen left found
  exact (grounded.discard leaving).pivot exchange not_dummy

/-- A goal that is bounded below on admissible solutions has reached its least value when the
phase halts. -/
theorem Sound.lowest_of_halt (sound : Sound kinds start now) (feasible : now.tableau.Feasible)
    (grounded : now.tableau.Grounded allowed) {bound : Rat}
    (bounded : ∀ assignment : Assignment, assignment.Admissible kinds →
      Solves assignment start.tableau → bound ≤ start.goal.eval assignment)
    {reached : Bool} (halts : now.step = .halt reached) :
    reached = true ∧ now.goal.Lowest := by
  have regular := sound.equivalent.regular
  unfold Descent.step at halts
  split at halts
  · rename_i stopped
    refine ⟨(Step.halt.inj halts).symm, fun term member not_dummy => ?_⟩
    exact LinearForm.of_entering?_eq_none stopped member not_dummy
  · rename_i entering chosen
    exfalso
    split at halts
    · rename_i missing
      -- Nothing stops the entering symbol, so the goal falls below every bound.
      obtain ⟨amount, in_goal, not_dummy, negative⟩ := LinearForm.of_entering?_eq_some chosen
      have free := sound.settled.free _ in_goal
      have rises : ∀ row ∈ now.tableau.equations, row.1.isRestricted = true →
          0 ≤ row.2.coefficient entering := by
        intro row member restricted
        cases found : row.2.coefficient? entering with
        | none => rw [LinearForm.coefficient_of_eq_none found]
        | some coefficient =>
            rw [LinearForm.coefficient_of_eq_some found]
            exact (of_leaving?_eq_none missing member restricted found).le
      have slope : now.goal.coefficient entering = amount :=
        LinearForm.coefficient_of_mem in_goal
      have falls : ∀ growth : Rat, 0 ≤ growth →
          bound ≤ now.goal.constant + amount * growth := by
        intro growth nonnegative
        have admissible := feasible.admissible_growing grounded regular free.1 not_dummy rises
          nonnegative
        have solves := regular.solves_complete (Assignment.zero.set entering.id growth)
        have solves_start := (sound.equivalent.solves_iff _).mp solves
        have above := bounded _ admissible solves_start
        rw [← sound.eval_goal _ solves_start, sound.settled.eval_complete,
          now.goal.eval_set free.1.1, LinearForm.eval_zero, slope] at above
        simpa [Assignment.zero] using above
      have steep : 0 < -amount := neg_pos.mpr negative
      have at_zero := falls 0 le_rfl
      have beyond := falls ((now.goal.constant - bound + 1) / -amount)
        (div_nonneg (by linarith) steep.le)
      rw [div_neg, mul_neg, mul_div_cancel₀ _ negative.ne] at beyond
      linarith
    · rename_i leaving left
      obtain ⟨form, _, member, _⟩ := of_leaving?_eq_some left
      have found := form?_of_mem member
      simp only at found
      simp [take?_eq, found] at halts

end Descent

/-- The primal phase over a feasible tableau ends feasible. If its goal is bounded below on
admissible solutions and the phase ends by itself, the goal has reached its least value. -/
theorem descend_feasible (regular : tableau.Regular kinds) (tidy : tableau.Tidy kinds)
    {goal? : Option (LinearForm Rat)}
    (settled : tableau.Settled kinds (goal?.getD tableau.objective))
    (confined : (goal?.getD tableau.objective).Over fun symbol => symbol.isExternal = false)
    (feasible : tableau.Feasible) (steps : Nat) :
    (tableau.descend steps goal?).state.tableau.Feasible := by
  have keeps : ∀ now following : Descent Rat,
      Descent.Sound kinds ⟨tableau, goal?⟩ now ∧ now.tableau.Feasible →
        now.step = .next following →
          Descent.Sound kinds ⟨tableau, goal?⟩ following ∧ following.tableau.Feasible :=
    fun _ _ holds moves => ⟨holds.1.step moves, holds.1.feasible_step holds.2 moves⟩
  exact (iterate_invariant keeps steps _
    ⟨Descent.Sound.refl regular tidy settled confined, feasible⟩).2

theorem descend_grounded (regular : tableau.Regular kinds) (tidy : tableau.Tidy kinds)
    {goal? : Option (LinearForm Rat)}
    (settled : tableau.Settled kinds (goal?.getD tableau.objective))
    (confined : (goal?.getD tableau.objective).Over fun symbol => symbol.isExternal = false)
    (grounded : tableau.Grounded allowed) (steps : Nat) :
    (tableau.descend steps goal?).state.tableau.Grounded allowed := by
  have keeps : ∀ now following : Descent Rat,
      Descent.Sound kinds ⟨tableau, goal?⟩ now ∧ now.tableau.Grounded allowed →
        now.step = .next following →
          Descent.Sound kinds ⟨tableau, goal?⟩ following ∧ following.tableau.Grounded allowed :=
    fun _ _ holds moves => ⟨holds.1.step moves, holds.1.grounded_step holds.2 moves⟩
  exact (iterate_invariant keeps steps _
    ⟨Descent.Sound.refl regular tidy settled confined, grounded⟩).2

theorem descend_lowest (regular : tableau.Regular kinds) (tidy : tableau.Tidy kinds)
    {goal? : Option (LinearForm Rat)}
    (settled : tableau.Settled kinds (goal?.getD tableau.objective))
    (confined : (goal?.getD tableau.objective).Over fun symbol => symbol.isExternal = false)
    (feasible : tableau.Feasible) (grounded : tableau.Grounded allowed) {bound : Rat}
    (bounded : ∀ assignment : Assignment, assignment.Admissible kinds →
      Solves assignment tableau → bound ≤ (goal?.getD tableau.objective).eval assignment)
    {steps : Nat} {reached : Bool}
    (finished : (tableau.descend steps goal?).result? = some reached) :
    reached = true ∧ (tableau.descend steps goal?).state.goal.Lowest :=
  (descend_sound regular tidy settled confined steps).lowest_of_halt
    (descend_feasible regular tidy settled confined feasible steps)
    (descend_grounded regular tidy settled confined grounded steps) bounded
    (step_state_of_result steps _ reached finished)

end Tableau

end SoftSimplex
