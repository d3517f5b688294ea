import SoftSimplex.Proofs.Tableau.Stages

/-!
# Growing symbols

While one free symbol grows and all others stay where they are, every symbol moves at a constant
rate, which its row tells. What the objective gains with a symbol is the price of what is missed
more. So nothing of a tableau has to be known but which symbols are free: the entries of its ledger
stay balanced, and that determines all rates.

A pivot that leaves no row below zero leaves the queue of repairs as it was.
-/

namespace SoftSimplex

/-- A row that is not below zero does not join the queue. -/
theorem Agenda.repairs_note_of_nonneg (agenda : Agenda) (symbol : Symbol) {row : Row Rat}
    (nonneg : symbol.isExternal = false → 0 ≤ row.form.constant) :
    (agenda.note symbol row).2.repairs = agenda.repairs := by
  unfold note
  split
  · unfold touch
    split <;> rfl
  · rename_i internal
    have calm : ¬ (row.form.constant < 0 && !row.isQueued) = true := by
      rw [Bool.and_eq_true, decide_eq_true_eq]
      exact fun both => absurd both.1 (not_lt.mpr (nonneg (by simpa using internal)))
    rw [queue, if_neg calm]

theorem Agenda.Notes.repairs_passEntries {action : Agenda → Symbol → Row Rat → Row Rat × Agenda}
    (notes : Notes action) (entries : List (Symbol × Row Rat)) (agenda : Agenda)
    (nonneg : ∀ after ∈ (SoftSimplex.passEntries action entries agenda).1,
      after.1.isExternal = false → 0 ≤ after.2.form.constant) :
    (SoftSimplex.passEntries action entries agenda).2.repairs = agenda.repairs := by
  induction entries generalizing agenda with
  | nil => rfl
  | cons first rest inductionHypothesis =>
      obtain ⟨symbol, row⟩ := first
      simp only [SoftSimplex.passEntries] at nonneg ⊢
      obtain ⟨here, there⟩ := List.forall_mem_cons.mp nonneg
      rw [inductionHypothesis _ there]
      rcases notes agenda symbol row with unchanged | ⟨form, noted⟩
      · rw [unchanged]
      · rw [noted] at here ⊢
        refine agenda.repairs_note_of_nonneg symbol fun internal => ?_
        have risen := here internal
        rwa [Tableau.form_note] at risen

/-- Nothing waits after a pivot that leaves no row below zero. -/
theorem Tableau.repairs_pivot {kinds : Nat → Symbol.Kind} {base : Tableau Rat}
    {form : LinearForm Rat} {entering leaving : Symbol} (regular : base.Regular kinds)
    (free : base.form? entering = none)
    (regular' : (base.pivot form entering leaving).Regular kinds)
    (upright : (base.pivot form entering leaving).Upright ⟨true, true⟩) :
    (base.pivot form entering leaving).agenda.repairs = base.agenda.repairs := by
  have walked := base.rows.pass_eq base.agenda fun agenda basic row =>
    if row.form.mentions entering then
      agenda.note basic
        { row with form := row.form.substitute entering (form.isolate entering leaving) }
    else (row, agenda)
  refine (agenda_touch_repairs _ _).trans ((congrArg (fun pair => pair.2.repairs) walked).trans ?_)
  refine (notes_eliminate entering _).repairs_passEntries _ _ fun after member internal => ?_
  rw [← walked] at member
  have inside : (after.1, after.2.form) ∈
      (base.eliminate entering (form.isolate entering leaving)).equations :=
    List.mem_map_of_mem member
  have proper : after.1.Proper kinds := by
    rw [equations_eliminate] at inside
    obtain ⟨before, was, same⟩ := List.mem_map.mp inside
    rw [← (Prod.mk.inj same).1]
    exact regular.proper before was
  have found := form?_of_mem inside
  have apart : after.1.id ≠ entering.id := by
    intro same
    rw [form?_congr _ same, form?_eliminate, free] at found
    exact Option.some_ne_none _ found.symm
  have filed : (after.1, after.2.form) ∈ (base.pivot form entering leaving).equations := by
    refine regular'.mem_equations proper ?_
    rw [pivot, form?_put, if_neg apart]
    exact found
  cases dummy : after.1.isDummy with
  | true => exact ((upright.grounded rfl) _ filed dummy).1.ge
  | false =>
      exact (upright.feasible rfl rfl) _ filed
        (Symbol.isRestricted_of_internal proper.1 internal dummy)

namespace Tableau

variable {kinds : Nat → Symbol.Kind} {tableau : Tableau Rat} {grown symbol : Symbol}

/-- How much a symbol grows with every unit that a free one grows by, while all other free symbols
stay where they are. -/
def growth (tableau : Tableau Rat) (grown symbol : Symbol) : Rat :=
  tableau.complete (Assignment.unit grown.id) symbol.id - tableau.value symbol

theorem growth_self (free : tableau.form? grown = none) : tableau.growth grown grown = 1 := by
  rw [growth, complete_of_free free, value_of_not_basic free, Assignment.unit, if_pos rfl, sub_zero]

theorem growth_of_free (free : tableau.form? symbol = none) (apart : symbol.id ≠ grown.id) :
    tableau.growth grown symbol = 0 := by
  rw [growth, complete_of_free free, value_of_not_basic free, Assignment.unit, if_neg apart,
    sub_zero]

theorem growth_of_form? {form : LinearForm Rat} (found : tableau.form? symbol = some form)
    (proper : grown.id ≠ 0) : tableau.growth grown symbol = form.coefficient grown := by
  rw [growth, complete_of_form? found, value_of_form? found, form.coefficient_eq proper]

namespace Stands

variable {ledger priced : Ledger} (stands : tableau.Stands kinds ledger priced)

include stands

/-- While a symbol grows every entry stays balanced. -/
theorem balanced {entry : Constraint Rat} (member : entry ∈ ledger) (given : Assignment) :
    entry.balance (tableau.complete given) = 0 :=
  (stands.means _).mp (stands.regular.solves_complete given) entry member

/-- What the objective gains with a symbol is what the missed amounts gain in price. -/
theorem coefficient_objective (proper : grown.id ≠ 0) :
    tableau.objective.coefficient grown = priced.price (tableau.complete (.unit grown.id)) -
      priced.price (tableau.complete .zero) := by
  obtain ⟨drift, is_price⟩ := stands.prices
  have settled := stands.regular.objective_settled
  rw [LinearForm.coefficient_eq _ proper, ← LinearForm.eval_zero, ← settled.eval_complete,
    ← settled.eval_complete Assignment.zero, is_price _ (stands.regular.solves_complete _),
    is_price _ (stands.regular.solves_complete _)]
  ring

variable (entries : Ledger.Regular kinds ledger) (proper : symbol.Proper kinds)
  (internal : symbol.isExternal = false)

include entries proper internal

/-- What no entry owns has no influence, unless it is a variable. -/
theorem indifferent_of_not_owned (unowned : ∀ entry ∈ ledger, ¬ entry.Owns symbol.id) :
    tableau.Indifferent symbol.id := by
  have kind : kinds symbol.id ≠ .external := fun external =>
    Bool.noConfusion (internal.symm.trans ((proper.isOf_iff .external).mpr external))
  exact stands.means.indifferent proper.1 fun entry member =>
    ⟨(entries.fit entry member).expression_avoids kind, unowned entry member⟩

/-- What has a row is a variable or belongs to an entry. -/
theorem exists_owner_of_form? (basic : tableau.form? symbol ≠ none) :
    ∃ entry ∈ ledger, entry.Owns symbol.id := by
  by_contra unowned
  push Not at unowned
  exact basic (stands.regular.form?_of_indifferent
    (stands.indifferent_of_not_owned entries proper internal unowned))

end Stands

/-- What occurs in the objective belongs to an entry. -/
theorem Stands.exists_owner_of_mentions {ledger : Ledger} (stands : tableau.Stands kinds ledger ledger)
    (entries : Ledger.Regular kinds ledger) (proper : symbol.Proper kinds)
    (internal : symbol.isExternal = false) (mentioned : tableau.objective.mentions symbol = true) :
    ∃ entry ∈ ledger, entry.Owns symbol.id := by
  by_contra unowned
  push Not at unowned
  have unmentioned := stands.regular.objective_mentions_eq_false
    (stands.indifferent_of_not_owned entries proper internal unowned) stands.prices proper.1
      unowned symbol.kind
  exact Bool.noConfusion (mentioned.symm.trans unmentioned)

theorem Descent.step_eq_halt_of (stopped : tableau.objective.entering? = none) :
    Descent.step ⟨tableau, none⟩ = .halt true := by
  have goal : (Descent.mk tableau none).goal = tableau.objective := rfl
  rw [Descent.step, goal, stopped]

theorem Descent.step_eq_next_of {entering leaving : Symbol} {form : LinearForm Rat}
    (chosen : tableau.objective.entering? = some entering)
    (left : tableau.leaving? entering = some leaving)
    (found : tableau.form? leaving = some form) : Descent.step ⟨tableau, none⟩ =
      .next ⟨(tableau.discard leaving).pivot form entering leaving, none⟩ := by
  have goal : (Descent.mk tableau none).goal = tableau.objective := rfl
  rw [Descent.step, goal, chosen]
  simp only [left, tableau.take?_eq, found, Option.map_some, Option.map_none]

/-- A step of the primal phase leaves everything valid. -/
theorem Stands.descends {ledger priced : Ledger} {next : Tableau Rat}
    (stands : tableau.Stands kinds ledger priced) (upright : tableau.Upright ⟨true, true⟩)
    (moves : Descent.step ⟨tableau, none⟩ = .next ⟨next, none⟩) :
    next.Stands kinds ledger priced ∧ next.Upright ⟨true, true⟩ := by
  have sound : Descent.Sound kinds ⟨tableau, none⟩ ⟨tableau, none⟩ :=
    .refl stands.regular stands.tidy stands.regular.objective_settled
      stands.regular.objective_confined
  have following := sound.step moves
  have grounded := sound.grounded_step (upright.grounded rfl) moves
  have feasible := sound.feasible_step (upright.feasible rfl rfl) moves
  exact ⟨stands.equivalent following.equivalent following.tidy,
    fun _ => grounded, fun _ _ => feasible⟩

/-- The primal phase halts after the given number of steps, with its goal at the least value. -/
def Lowers (tableau : Tableau Rat) (need : Nat) (lowered : Tableau Rat) : Prop :=
  ∀ spare, tableau.descend (need + spare) none = ⟨⟨lowered, none⟩, spare, some true⟩

theorem lowers_self (stopped : tableau.objective.entering? = none) :
    tableau.Lowers 0 tableau := by
  intro spare
  rw [Nat.zero_add, descend, iterate_of_halt (Descent.step_eq_halt_of stopped)]

theorem Lowers.step {next lowered : Tableau Rat} {need : Nat} (lowers : next.Lowers need lowered)
    (moves : Descent.step ⟨tableau, none⟩ = .next ⟨next, none⟩) :
    tableau.Lowers (need + 1) lowered := by
  intro spare
  rw [descend, Nat.add_right_comm, iterate_succ_of_next moves]
  exact lowers spare

end Tableau

end SoftSimplex
