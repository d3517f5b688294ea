import Mathlib.Algebra.Order.Field.Rat
import SoftSimplex.Proofs.Ledger
import SoftSimplex.Proofs.Tableau.Exchange

/-!
# Entering constraints and prices

The row of a constraint vanishes on exactly those solutions that satisfy the constraint. Solving
it for one of its symbols therefore enters the constraint into the ledger. Charging for missed
amounts enters their price, and refunding takes it out again.
-/

namespace SoftSimplex.Tableau

variable {kinds : Nat → Symbol.Kind} {tableau other : Tableau Rat}

/-- The two tableaus have the same equations and the same objective. -/
structure Alike {α : Type} (tableau other : Tableau α) : Prop where
  equations : other.equations = tableau.equations
  objective : other.objective = tableau.objective

namespace Alike

theorem refl {α : Type} (tableau : Tableau α) : tableau.Alike tableau := ⟨rfl, rfl⟩

theorem symm {α : Type} {tableau other : Tableau α} (alike : tableau.Alike other) :
    other.Alike tableau :=
  ⟨alike.equations.symm, alike.objective.symm⟩

theorem trans {α : Type} {tableau other third : Tableau α} (alike : tableau.Alike other)
    (alike' : other.Alike third) : tableau.Alike third :=
  ⟨alike'.equations.trans alike.equations, alike'.objective.trans alike.objective⟩

theorem form? {α : Type} {tableau other : Tableau α} (alike : tableau.Alike other)
    (symbol : Symbol) :
    other.form? symbol = tableau.form? symbol := by
  apply Option.ext
  intro form
  rw [form?_eq_some_iff, form?_eq_some_iff, alike.equations]

theorem value {α : Type} [Scalar α] {tableau other : Tableau α} (alike : tableau.Alike other)
    (symbol : Symbol) : other.value symbol = tableau.value symbol := by
  rw [Tableau.value, Tableau.value, alike.form?]

theorem solves_iff (alike : tableau.Alike other) (assignment : Assignment) :
    Solves assignment other ↔ Solves assignment tableau := by
  rw [Solves, Solves, alike.equations]

theorem settled_iff (alike : tableau.Alike other) (form : LinearForm Rat) :
    other.Settled kinds form ↔ tableau.Settled kinds form := by
  have free : other.Free kinds = tableau.Free kinds := by
    funext symbol
    rw [Free, Free, alike.form?]
  exact ⟨fun settled => ⟨free ▸ settled.free, settled.reduced⟩,
    fun settled => ⟨free ▸ settled.free, settled.reduced⟩⟩

theorem regular (alike : tableau.Alike other) (regular : tableau.Regular kinds) :
    other.Regular kinds where
  proper row member := regular.proper row (alike.equations ▸ member)
  settled row member :=
    (alike.settled_iff row.2).mpr (regular.settled row (alike.equations ▸ member))
  confined row member := regular.confined row (alike.equations ▸ member)
  objective_settled := by
    rw [alike.objective]
    exact (alike.settled_iff _).mpr regular.objective_settled
  objective_confined := by
    rw [alike.objective]
    exact regular.objective_confined

theorem means {ledger : Ledger} (alike : tableau.Alike other) (means : tableau.Means ledger) :
    other.Means ledger :=
  fun assignment => (alike.solves_iff assignment).trans (means assignment)

theorem prices {ledger : Ledger} (alike : tableau.Alike other)
    (prices : tableau.Prices ledger) : other.Prices ledger := by
  obtain ⟨drift, priced⟩ := prices
  refine ⟨drift, fun assignment solves => ?_⟩
  rw [alike.objective]
  exact priced assignment ((alike.solves_iff assignment).mp solves)

end Alike

/-- Only the objective has changed. -/
theorem Regular.withObjective (regular : tableau.Regular kinds) {objective : LinearForm Rat}
    (settled : tableau.Settled kinds objective)
    (confined : objective.Over fun symbol => symbol.isExternal = false) :
    ({ tableau with objective } : Tableau Rat).Regular kinds :=
  ⟨regular.proper, fun row member =>
      ⟨(regular.settled row member).free, (regular.settled row member).reduced⟩,
    regular.confined, ⟨settled.free, settled.reduced⟩, confined⟩

/-- On solutions a symbol written without basic symbols has its own value. -/
theorem Solves.eval_plusExpressed {assignment : Assignment}
    (solves : Solves assignment tableau) (form : LinearForm Rat) (symbol : Symbol)
    (amount : Rat) :
    (tableau.plusExpressed form symbol amount).eval assignment =
      form.eval assignment + amount * symbol.under assignment := by
  unfold plusExpressed
  split
  · rename_i definition found
    rw [LinearForm.eval_plusMultiple, ← solves.under_eq found, mul_comm]
  · rw [LinearForm.eval_plus]

theorem Settled.plusExpressed (regular : tableau.Regular kinds) {form : LinearForm Rat}
    (settled : tableau.Settled kinds form) {symbol : Symbol} (proper : symbol.Proper kinds)
    (amount : Rat) : tableau.Settled kinds (tableau.plusExpressed form symbol amount) := by
  unfold Tableau.plusExpressed
  split
  · rename_i definition found
    exact ⟨settled.free.plusMultiple (regular.settled_of_form? found).free amount,
      settled.reduced.plusMultiple definition amount⟩
  · rename_i free
    exact ⟨settled.free.plus (fun _ => ⟨proper, free⟩) amount,
      settled.reduced.plus symbol amount⟩

/-- On solutions an expression without basic symbols has the value of the expression. -/
theorem Solves.eval_express {assignment : Assignment} (solves : Solves assignment tableau)
    (form : LinearForm Rat) : (tableau.express form).eval assignment = form.eval assignment := by
  have walk : ∀ (terms : List (Symbol × Rat)) (sum : LinearForm Rat),
      (terms.foldl (fun sum term => tableau.plusExpressed sum term.1 term.2) sum).eval
          assignment =
        sum.eval assignment + (terms.map fun term => term.2 * term.1.under assignment).sum := by
    intro terms
    induction terms with
    | nil => simp
    | cons term rest inductionHypothesis =>
        intro sum
        rw [List.foldl_cons, inductionHypothesis, solves.eval_plusExpressed, List.map_cons,
          List.sum_cons]
        ring
  rw [express, walk, LinearForm.eval_ofConstant, LinearForm.eval_eq]

theorem Regular.settled_express (regular : tableau.Regular kinds) {form : LinearForm Rat}
    (spanned : form.Over (Symbol.Proper kinds)) : tableau.Settled kinds (tableau.express form) := by
  have walk : ∀ (terms : List (Symbol × Rat)), (∀ term ∈ terms, term.1.Proper kinds) →
      ∀ sum, tableau.Settled kinds sum → tableau.Settled kinds
        (terms.foldl (fun sum term => tableau.plusExpressed sum term.1 term.2) sum) := by
    intro terms
    induction terms with
    | nil => exact fun _ _ settled => settled
    | cons term rest inductionHypothesis =>
        intro proper sum settled
        rw [List.foldl_cons]
        refine inductionHypothesis (fun later inside => proper later
          (List.mem_cons_of_mem _ inside)) _ ?_
        exact settled.plusExpressed regular (proper term List.mem_cons_self) term.2
  exact walk form.terms spanned _
    ⟨LinearForm.Over.ofConstant _, LinearForm.Reduced.ofConstant _⟩

/-! ## The row of a constraint -/

theorem constant_rowFor_nonneg (tableau : Tableau Rat) (expression : LinearForm Rat)
    (markers : Markers) : 0 ≤ (tableau.rowFor expression markers).constant := by
  unfold rowFor
  dsimp only
  split
  · rename_i negative
    change 0 ≤ (markers.extend (tableau.express expression)).constant * (-1 : Rat)
    linarith
  · rename_i nonnegative
    exact not_lt.mp nonnegative

/-- On solutions the row of a constraint is its balance or the opposite of it. -/
theorem exists_eval_rowFor (tableau : Tableau Rat) (expression : LinearForm Rat)
    (markers : Markers) :
    ∃ factor : Rat, (factor = 1 ∨ factor = -1) ∧
      ∀ assignment, Solves assignment tableau →
        (tableau.rowFor expression markers).eval assignment =
          (markers.extend expression).eval assignment * factor := by
  have extended : ∀ assignment, Solves assignment tableau →
      (markers.extend (tableau.express expression)).eval assignment =
        (markers.extend expression).eval assignment := by
    intro assignment solves
    rw [Markers.eval_extend, Markers.eval_extend, solves.eval_express]
  unfold rowFor
  dsimp only
  split
  · refine ⟨-1, Or.inr rfl, fun assignment solves => ?_⟩
    rw [LinearForm.eval_scale, extended assignment solves]
  · refine ⟨1, Or.inl rfl, fun assignment solves => ?_⟩
    rw [extended assignment solves, mul_one]

theorem Regular.settled_rowFor (regular : tableau.Regular kinds) {expression : LinearForm Rat}
    (spanned : expression.Over (Symbol.Proper kinds)) {markers : Markers}
    (free : ∀ symbol ∈ [markers.marker, markers.other], symbol.isNull = false →
      tableau.Free kinds symbol) :
    tableau.Settled kinds (tableau.rowFor expression markers) := by
  have settled := regular.settled_express spanned
  have extended : tableau.Settled kinds (markers.extend (tableau.express expression)) :=
    ⟨(settled.free.plus (free _ (by simp)) _).plus (free _ (by simp)) _,
      (settled.reduced.plus _ _).plus _ _⟩
  unfold rowFor
  dsimp only
  split
  · exact ⟨extended.free.scale _, extended.reduced.scale (by norm_num : (-1 : Rat) ≠ 0)⟩
  · exact extended

/-- Solving a row that vanishes where a constraint is satisfied enters the constraint. -/
theorem Means.pivot {ledger : Ledger} (means : tableau.Means ledger) {form : LinearForm Rat}
    {entering : Symbol} (exchange : tableau.Exchange kinds form entering Symbol.null)
    {constraint : Constraint Rat}
    (row : ∀ assignment, Solves assignment tableau →
      (form.eval assignment = 0 ↔ constraint.balance assignment = 0)) :
    (tableau.pivot form entering Symbol.null).Means (constraint :: ledger) := by
  intro assignment
  rw [exchange.solves_pivot_iff, List.forall_mem_cons, ← means assignment, Symbol.under_null,
    and_comm]
  constructor
  · rintro ⟨vanishes, solves⟩
    exact ⟨(row assignment solves).mp vanishes.symm, solves⟩
  · rintro ⟨balanced, solves⟩
    exact ⟨((row assignment solves).mpr balanced).symm, solves⟩

/-- A pivot changes no price. -/
theorem Prices.pivot {ledger : Ledger} (prices : tableau.Prices ledger)
    {form : LinearForm Rat} {entering leaving : Symbol}
    (exchange : tableau.Exchange kinds form entering leaving) :
    (tableau.pivot form entering leaving).Prices ledger := by
  obtain ⟨drift, priced⟩ := prices
  refine ⟨drift, fun assignment solves => ?_⟩
  obtain ⟨solves_rest, equation⟩ := (exchange.solves_pivot_iff assignment).mp solves
  rw [objective_pivot, exchange.eval_substitute_of_equation equation]
  exact priced assignment solves_rest

theorem eval_foldl_plus (symbols : List Symbol) (amount : Rat) (form : LinearForm Rat)
    (assignment : Assignment) :
    (symbols.foldl (fun form symbol => form.plus symbol amount) form).eval assignment =
      form.eval assignment +
        amount * (symbols.map fun symbol => symbol.under assignment).sum := by
  induction symbols generalizing form with
  | nil => simp
  | cons symbol rest inductionHypothesis =>
      rw [List.foldl_cons, inductionHypothesis, LinearForm.eval_plus, List.map_cons,
        List.sum_cons]
      ring

/-- Charging for fresh missed amounts. -/
theorem Regular.chargeFresh (regular : tableau.Regular kinds) {symbols : List Symbol}
    (free : ∀ symbol ∈ symbols, tableau.Free kinds symbol ∧ symbol.isExternal = false)
    (amount : Rat) : (tableau.chargeFresh symbols amount).Regular kinds := by
  apply regular.withObjective
  · refine List.foldlRecOn (motive := tableau.Settled kinds) symbols _ regular.objective_settled ?_
    exact fun _ settled symbol member =>
      ⟨settled.free.plus (fun _ => (free symbol member).1) amount,
        settled.reduced.plus symbol amount⟩
  · apply regular.objective_confined.foldl
    exact fun symbol member _ confined => confined.plus (fun _ => (free symbol member).2) amount

theorem Prices.chargeFresh {ledger : Ledger} (prices : tableau.Prices ledger)
    (constraint : Constraint Rat) :
    (tableau.chargeFresh constraint.markers.errors constraint.strength.weight).Prices
      (constraint :: ledger) := by
  obtain ⟨drift, priced⟩ := prices
  refine ⟨drift, fun assignment solves => ?_⟩
  change (List.foldl _ tableau.objective constraint.markers.errors).eval assignment = _
  rw [eval_foldl_plus, priced assignment solves, Ledger.price_cons, Constraint.price,
    Constraint.missed]
  ring

/-- On solutions a charge adds its amount for each unit. -/
theorem Solves.eval_charge {assignment : Assignment} (solves : Solves assignment tableau)
    (symbols : List Symbol) (amount : Rat) :
    (tableau.charge symbols amount).objective.eval assignment =
      tableau.objective.eval assignment +
        amount * (symbols.map fun symbol => symbol.under assignment).sum := by
  have walk : ∀ (symbols : List Symbol) (form : LinearForm Rat),
      (symbols.foldl (fun form symbol => tableau.plusExpressed form symbol amount) form).eval
          assignment =
        form.eval assignment +
          amount * (symbols.map fun symbol => symbol.under assignment).sum := by
    intro symbols
    induction symbols with
    | nil => simp
    | cons symbol rest inductionHypothesis =>
        intro form
        rw [List.foldl_cons, inductionHypothesis, solves.eval_plusExpressed, List.map_cons,
          List.sum_cons]
        ring
  exact walk symbols tableau.objective

theorem confined_plusExpressed (regular : tableau.Regular kinds) {form : LinearForm Rat}
    (confined : form.Over fun symbol => symbol.isExternal = false) {symbol : Symbol}
    (proper : symbol.Proper kinds) (internal : symbol.isExternal = false) (amount : Rat) :
    (tableau.plusExpressed form symbol amount).Over fun symbol => symbol.isExternal = false := by
  unfold plusExpressed
  split
  · rename_i definition found
    exact confined.plusMultiple
      (regular.confined _ (regular.mem_equations proper found) internal) amount
  · exact confined.plus (fun _ => internal) amount

theorem Regular.charge (regular : tableau.Regular kinds) {symbols : List Symbol}
    (internal : ∀ symbol ∈ symbols, symbol.Proper kinds ∧ symbol.isExternal = false)
    (amount : Rat) : (tableau.charge symbols amount).Regular kinds := by
  apply regular.withObjective
  · refine List.foldlRecOn (motive := tableau.Settled kinds) symbols _ regular.objective_settled ?_
    exact fun _ settled symbol member =>
      settled.plusExpressed regular (internal symbol member).1 amount
  · apply regular.objective_confined.foldl
    exact fun symbol member _ confined => confined_plusExpressed regular confined
      (internal symbol member).1 (internal symbol member).2 amount

/-- A constraint whose weight changes is charged or refunded the difference. -/
theorem Prices.charge {ledger : Ledger} {constraint : Constraint Rat}
    (prices : tableau.Prices (constraint :: ledger)) (strength : Strength Rat) :
    (tableau.charge constraint.markers.errors
      (strength.weight - constraint.strength.weight)).Prices
        ({ constraint with strength } :: ledger) := by
  obtain ⟨drift, priced⟩ := prices
  refine ⟨drift, fun assignment solves => ?_⟩
  have before : Solves assignment tableau := solves
  rw [before.eval_charge, priced assignment before, Ledger.price_cons, Ledger.price_cons,
    Constraint.price, Constraint.price, Constraint.missed, Constraint.missed]
  ring

/-- A constraint that leaves is refunded the price of its missed amounts. -/
theorem Prices.refund {ledger : Ledger} {constraint : Constraint Rat}
    (prices : tableau.Prices (constraint :: ledger)) :
    (tableau.charge constraint.markers.errors (-constraint.strength.weight)).Prices ledger := by
  obtain ⟨drift, priced⟩ := prices
  refine ⟨drift, fun assignment solves => ?_⟩
  have before : Solves assignment tableau := solves
  rw [before.eval_charge, priced assignment before, Ledger.price_cons, Constraint.price,
    Constraint.missed]
  ring

/-- The constant of an objective without terms does not matter. -/
theorem Regular.settleObjective (regular : tableau.Regular kinds) :
    tableau.settleObjective.Regular kinds := by
  unfold Tableau.settleObjective
  split
  · exact regular.withObjective ⟨regular.objective_settled.free, regular.objective_settled.reduced⟩
      regular.objective_confined
  · exact regular

theorem equations_settleObjective (tableau : Tableau Rat) :
    tableau.settleObjective.equations = tableau.equations := by
  unfold settleObjective
  split <;> rfl

theorem form?_settleObjective (tableau : Tableau Rat) (symbol : Symbol) :
    tableau.settleObjective.form? symbol = tableau.form? symbol := by
  unfold settleObjective
  split <;> rfl

theorem Prices.settleObjective {ledger : Ledger} (prices : tableau.Prices ledger) :
    tableau.settleObjective.Prices ledger := by
  unfold Tableau.settleObjective
  split
  · obtain ⟨drift, priced⟩ := prices
    refine ⟨drift - tableau.objective.constant, fun assignment solves => ?_⟩
    have before := priced assignment solves
    simp only [LinearForm.eval] at before ⊢
    change 0 + _ = _
    linarith
  · exact prices

end SoftSimplex.Tableau
