import SoftSimplex.Proofs.Tableau.Phase

/-!
# Moving the target of an equality

Moving a target changes constants only. The solutions move along: one missed amount of the
equality takes up the difference, so the tableau means the ledger in which the expression of the
equality is lowered by the amount.
-/

namespace SoftSimplex

/-- The constraint with its expression lowered by an amount. -/
def Constraint.lowered (constraint : Constraint Rat) (amount : Rat) : Constraint Rat :=
  { constraint with
    expression := { constraint.expression with
      constant := constraint.expression.constant - amount } }

namespace Constraint

theorem balance_lowered (constraint : Constraint Rat) (amount : Rat) (assignment : Assignment) :
    (constraint.lowered amount).balance assignment = constraint.balance assignment - amount := by
  rw [balance_eq, balance_eq]
  simp only [lowered, LinearForm.eval]
  ring

theorem price_lowered (constraint : Constraint Rat) (amount : Rat) (assignment : Assignment) :
    (constraint.lowered amount).price assignment = constraint.price assignment := rfl

theorem Fit.lowered {kinds : Nat → Symbol.Kind} {constraint : Constraint Rat}
    (fit : constraint.Fit kinds) (amount : Rat) : (constraint.lowered amount).Fit kinds :=
  ⟨fit.expression, fit.markers⟩

end Constraint

theorem Ledger.Regular.lowered {kinds : Nat → Symbol.Kind} {constraint : Constraint Rat}
    {ledger : Ledger} (regular : Ledger.Regular kinds (constraint :: ledger)) (amount : Rat) :
    Ledger.Regular kinds (constraint.lowered amount :: ledger) := by
  refine ⟨?_, ?_⟩
  · intro entry member
    rcases List.mem_cons.mp member with rfl | inside
    · exact regular.head.lowered amount
    · exact regular.tail.fit entry inside
  · obtain ⟨apart, rest⟩ := List.pairwise_cons.mp regular.apart
    exact List.pairwise_cons.mpr ⟨apart, rest⟩

namespace Tableau

variable {kinds : Nat → Symbol.Kind} {tableau other : Tableau Rat}

/-- Rows whose forms have changed in the constants only. -/
theorem Regular.of_constants (regular : tableau.Regular kinds)
    (change : Symbol → LinearForm Rat → LinearForm Rat)
    (terms : ∀ symbol form, (change symbol form).coefficients = form.coefficients)
    (equations : other.equations = tableau.equations.map fun row => (row.1, change row.1 row.2))
    (objective : other.objective = tableau.objective) : other.Regular kinds := by
  have free : ∀ symbol, tableau.form? symbol = none → other.form? symbol = none := by
    intro symbol absent
    rw [form?_eq_none_iff] at absent ⊢
    rw [equations, List.forall_mem_map]
    exact absent
  have settle : ∀ form form' : LinearForm Rat, form'.coefficients = form.coefficients →
      tableau.Settled kinds form → other.Settled kinds form' := by
    intro form form' same settled
    have same_terms : form'.terms = form.terms := congrArg SlotTable.entries same
    refine ⟨fun term member => ?_, fun term member => ?_⟩
    · rw [same_terms] at member
      exact ⟨(settled.free term member).1, free _ (settled.free term member).2⟩
    · rw [same_terms] at member
      exact settled.reduced term member
  constructor
  · rw [equations, List.forall_mem_map]
    exact regular.proper
  · rw [equations, List.forall_mem_map]
    exact fun row member => settle _ _ (terms row.1 row.2) (regular.settled row member)
  · rw [equations, List.forall_mem_map]
    intro row member internal term inside
    have same_terms : (change row.1 row.2).terms = row.2.terms :=
      congrArg SlotTable.entries (terms row.1 row.2)
    rw [same_terms] at inside
    exact regular.confined row member internal term inside
  · rw [objective]
    exact settle _ _ rfl regular.objective_settled
  · rw [objective]
    exact regular.objective_confined

theorem equations_raise {α : Type} [Scalar α] {tableau : Tableau α} {symbol : Symbol}
    (basic : tableau.form? symbol ≠ none) (amount : α) :
    (tableau.raise symbol amount).equations = tableau.equations.map fun row =>
      (row.1, if row.1.id = symbol.id then { row.2 with constant := row.2.constant + amount }
        else row.2) := by
  cases found : tableau.rows.get? symbol with
  | none =>
      rw [form?, found] at basic
      exact absurd rfl basic
  | some row =>
      have present : tableau.rows.get? symbol ≠ none := by simp [found]
      simp only [raise, found, equations]
      rw [SlotTable.entries_insert_of_present _ _ _ present, List.map_map, List.map_map]
      refine List.map_congr_left fun entry member => ?_
      simp only [Function.comp_apply]
      by_cases same : entry.1.id = symbol.id
      · have is_row : entry.2 = row := Option.some.inj
          (((tableau.rows.get?_eq_some_iff symbol entry.2).mpr
            ⟨entry, member, same, rfl⟩).symm.trans found)
        rw [if_pos same, if_pos same, form_queue, is_row]
      · rw [if_neg same, if_neg same]

theorem objective_raise {α : Type} [Scalar α] (tableau : Tableau α) (symbol : Symbol) (amount : α) :
    (tableau.raise symbol amount).objective = tableau.objective := by
  unfold raise
  split <;> rfl

theorem Regular.raise (regular : tableau.Regular kinds) {symbol : Symbol}
    (basic : tableau.form? symbol ≠ none) (amount : Rat) :
    (tableau.raise symbol amount).Regular kinds := by
  refine regular.of_constants (fun other form => if other.id = symbol.id then
    { form with constant := form.constant + amount } else form) ?_
    (equations_raise basic amount) (objective_raise tableau symbol amount)
  intro other form
  split <;> rfl

/-- The basic symbol itself takes the amount up. -/
theorem solves_raise_iff (regular : tableau.Regular kinds) {symbol : Symbol}
    (proper : symbol.id ≠ 0) (basic : tableau.form? symbol ≠ none) (amount : Rat)
    (assignment : Assignment) :
    Solves assignment (tableau.raise symbol amount) ↔
      Solves (assignment.set symbol.id (assignment symbol.id - amount)) tableau := by
  obtain ⟨form, found⟩ := Option.ne_none_iff_exists'.mp basic
  unfold Solves
  rw [equations_raise basic]
  simp only [List.forall_mem_map]
  refine forall₂_congr fun row member => ?_
  have unmentioned := LinearForm.over_ne_of_not_mentions
    ((regular.settled row member).mentions_basic found)
  rw [unmentioned.eval_set]
  by_cases same : row.1.id = symbol.id
  · rw [if_pos same, Symbol.under_congr same, Symbol.under_congr same,
      Symbol.under_of_ne_zero proper, Symbol.under_of_ne_zero proper, Assignment.set_same]
    simp only [LinearForm.eval]
    constructor <;> intro equal <;> linarith
  · rw [if_neg same, Symbol.under_set_of_ne same]

/-- At most the raised row joins the queue. -/
theorem mem_repairs_raise {α : Type} [Scalar α] {tableau : Tableau α} {symbol other : Symbol}
    {amount : α} (member : other ∈ (tableau.raise symbol amount).agenda.repairs) :
    other = symbol ∨ other ∈ tableau.agenda.repairs := by
  unfold Tableau.raise at member
  split at member
  · exact Or.inr member
  · unfold Agenda.queue at member
    dsimp only at member
    split at member
    · exact List.mem_cons.mp member
    · exact Or.inr member

theorem touched_raise {α : Type} [Scalar α] (tableau : Tableau α) (symbol : Symbol) (amount : α) :
    (tableau.raise symbol amount).agenda.touched = tableau.agenda.touched := by
  unfold raise
  split
  · rfl
  · dsimp only [Agenda.queue]
    split <;> rfl

theorem Tidy.raise (tidy : tableau.Tidy kinds) {symbol : Symbol} (proper : symbol.Proper kinds)
    (internal : symbol.isExternal = false) (amount : Rat) :
    (tableau.raise symbol amount).Tidy kinds := by
  refine ⟨fun other member => ?_, Flagged.raise tidy.flagged symbol amount⟩
  rcases mem_repairs_raise member with rfl | inside
  · exact ⟨proper, internal⟩
  · exact tidy.queue other inside

/-- A raised row that falls below zero is flagged. -/
theorem Alert.raise (alert : tableau.Alert) (symbol : Symbol) (amount : Rat) :
    (tableau.raise symbol amount).Alert := by
  unfold Tableau.raise
  split
  · exact alert
  · rename_i row found
    unfold Agenda.queue
    dsimp only
    split
    · intro entry member internal negative
      rcases SlotTable.mem_entries_insert member with ⟨before, _⟩ | ⟨_, is_row, _⟩
      · exact alert entry before internal negative
      · rw [is_row]
    · rename_i calm
      intro entry member internal negative
      rcases SlotTable.mem_entries_insert member with ⟨before, _⟩ | ⟨_, is_row, _⟩
      · exact alert entry before internal negative
      · rw [is_row] at negative ⊢
        simpa [negative] using calm

theorem advance_eq {α : Type} [Scalar α] (tableau : Tableau α) (symbol : Symbol) (amount : α) :
    tableau.advance symbol amount =
      ⟨(tableau.rows.pass tableau.agenda (advanceRow symbol amount)).1, tableau.objective,
        (tableau.rows.pass tableau.agenda (advanceRow symbol amount)).2⟩ := rfl

theorem notes_advanceRow {α : Type} [Scalar α] (symbol : Symbol) (amount : α) :
    Agenda.Notes (advanceRow symbol amount) := by
  intro agenda basic row
  unfold advanceRow
  split
  · exact Or.inl rfl
  · exact Or.inr ⟨_, rfl⟩

/-- The form once a symbol has grown by an amount. -/
def grow {α : Type} [Scalar α] (form : LinearForm α) (symbol : Symbol) (amount : α) :
    LinearForm α :=
  (form.coefficient? symbol).elim form fun coefficient =>
    { form with constant := form.constant + coefficient * amount }

theorem terms_grow {α : Type} [Scalar α] (form : LinearForm α) (symbol : Symbol) (amount : α) :
    (grow form symbol amount).terms = form.terms := by
  unfold grow
  cases form.coefficient? symbol <;> rfl

theorem grow_eq (form : LinearForm Rat) (symbol : Symbol) (amount : Rat) :
    grow form symbol amount =
      { form with constant := form.constant + form.coefficient symbol * amount } := by
  unfold grow
  cases found : form.coefficient? symbol with
  | none => rw [LinearForm.coefficient_of_eq_none found, zero_mul, add_zero, Option.elim_none]
  | some coefficient => rw [LinearForm.coefficient_of_eq_some found, Option.elim_some]

theorem equations_advance_eq_grow {α : Type} [Scalar α] (tableau : Tableau α) (symbol : Symbol)
    (amount : α) : (tableau.advance symbol amount).equations =
      tableau.equations.map fun row => (row.1, grow row.2 symbol amount) := by
  have walked := congrArg Prod.fst (tableau.rows.pass_eq tableau.agenda
    (advanceRow symbol amount))
  rw [advance_eq]
  unfold equations
  rw [List.map_map]
  refine (congrArg (List.map _) walked).trans ?_
  refine forms_passEntries (fun _ form => grow form symbol amount) ?_
    tableau.rows.entries tableau.agenda
  intro agenda basic row
  unfold advanceRow grow
  cases row.form.coefficient? symbol with
  | none => rfl
  | some coefficient => exact form_note agenda basic _

theorem equations_advance (tableau : Tableau Rat) (symbol : Symbol) (amount : Rat) :
    (tableau.advance symbol amount).equations = tableau.equations.map fun row =>
      (row.1, { row.2 with
        constant := row.2.constant + row.2.coefficient symbol * amount }) := by
  simp only [equations_advance_eq_grow, grow_eq]

theorem Regular.advance (regular : tableau.Regular kinds) (symbol : Symbol) (amount : Rat) :
    (tableau.advance symbol amount).Regular kinds :=
  regular.of_constants (fun _ form =>
    { form with constant := form.constant + form.coefficient symbol * amount })
    (fun _ _ => rfl) (equations_advance tableau symbol amount) rfl

theorem solves_advance_iff {symbol : Symbol} (proper : symbol.id ≠ 0)
    (free : tableau.form? symbol = none) (amount : Rat) (assignment : Assignment) :
    Solves assignment (tableau.advance symbol amount) ↔
      Solves (assignment.set symbol.id (assignment symbol.id + amount)) tableau := by
  have apart := (tableau.form?_eq_none_iff symbol).mp free
  unfold Solves
  rw [equations_advance]
  simp only [List.forall_mem_map]
  refine forall₂_congr fun row member => ?_
  rw [Symbol.under_set_of_ne (apart row member), row.2.eval_set proper]
  simp only [LinearForm.eval, add_sub_cancel_left]
  constructor <;> intro equal <;> linarith

/-! ## Moving a target -/

/-- How a target is moved: the row of one of the two missed amounts is raised, or the rows move
along the first one. -/
theorem shift_cases {α : Type} [Scalar α] (tableau : Tableau α) (markers : Markers) (amount : α) :
    (tableau.form? markers.marker ≠ none ∧
      tableau.shift markers amount = tableau.raise markers.marker (-amount)) ∨
    (tableau.form? markers.other ≠ none ∧
      tableau.shift markers amount = tableau.raise markers.other amount) ∨
    (tableau.form? markers.marker = none ∧
      tableau.shift markers amount = tableau.advance markers.marker amount) := by
  unfold shift
  split
  · rename_i basic
    rw [isBasic_eq_isSome, Option.isSome_iff_ne_none] at basic
    exact Or.inl ⟨basic, rfl⟩
  · rename_i free
    rw [Bool.not_eq_true, isBasic_eq_false_iff] at free
    split
    · rename_i basic
      rw [isBasic_eq_isSome, Option.isSome_iff_ne_none] at basic
      exact Or.inr (Or.inl ⟨basic, rfl⟩)
    · exact Or.inr (Or.inr ⟨free, rfl⟩)

/-- The constraint is an equality that may be missed in both directions. -/
structure Elastic (kinds : Nat → Symbol.Kind) (constraint : Constraint Rat) : Prop where
  fit : constraint.Fit kinds
  relation : constraint.relation = some .equal
  soft : constraint.strength.isRequired = false

namespace Elastic

variable {constraint : Constraint Rat}

theorem marker_kind (elastic : Elastic kinds constraint) :
    constraint.markers.marker.kind = .error := by
  rw [elastic.fit.markers.marker_kind, elastic.relation, elastic.soft]
  rfl

theorem sign (elastic : Elastic kinds constraint) : constraint.markers.sign = -1 := by
  simp [Markers.sign, Symbol.isDummy, Symbol.isOf, elastic.marker_kind]

theorem missed_eq (elastic : Elastic kinds constraint) (assignment : Assignment) :
    constraint.missed assignment = constraint.markers.marker.under assignment +
      constraint.markers.other.under assignment := by
  obtain ⟨proper, kind⟩ := elastic.fit.markers.other_proper elastic.soft
  have marker_error : constraint.markers.marker.isError = true :=
    (Symbol.isOf_eq_true_iff _ _).mpr ⟨elastic.fit.markers.marker_proper.1, elastic.marker_kind⟩
  have other_error : constraint.markers.other.isError = true :=
    (Symbol.isOf_eq_true_iff _ _).mpr ⟨proper.1, kind⟩
  simp [Constraint.missed, Markers.errors, marker_error, other_error]

end Elastic

/-- How the solutions move with a target: one of the two missed amounts takes up the difference,
and the objective moves by an amount that does not depend on the solution. -/
theorem Elastic.solves_shift (elastic : Elastic kinds constraint)
    (regular : tableau.Regular kinds) (amount : Rat) :
    ∃ (symbol : Symbol) (move gain : Rat),
      ((symbol = constraint.markers.marker ∧ move = amount) ∨
        (symbol = constraint.markers.other ∧ move = -amount)) ∧
      (tableau.shift constraint.markers amount).objective = tableau.objective ∧
      ∀ assignment,
        (Solves assignment (tableau.shift constraint.markers amount) ↔
          Solves (assignment.set symbol.id (assignment symbol.id + move)) tableau) ∧
        tableau.objective.eval assignment = gain +
          tableau.objective.eval (assignment.set symbol.id (assignment symbol.id + move)) := by
  have marker_proper := elastic.fit.markers.marker_proper
  have other_proper := (elastic.fit.markers.other_proper elastic.soft).1
  rcases tableau.shift_cases constraint.markers amount with
    ⟨basic, result⟩ | ⟨basic, result⟩ | ⟨free, result⟩
  · obtain ⟨form, found⟩ := Option.ne_none_iff_exists'.mp basic
    refine ⟨_, amount, 0, Or.inl ⟨rfl, rfl⟩, by rw [result, objective_raise], fun assignment => ?_⟩
    rw [result, solves_raise_iff regular marker_proper.1 basic, sub_neg_eq_add, zero_add,
      (LinearForm.over_ne_of_not_mentions
        (regular.objective_settled.mentions_basic found)).eval_set]
    exact ⟨Iff.rfl, rfl⟩
  · obtain ⟨form, found⟩ := Option.ne_none_iff_exists'.mp basic
    refine ⟨_, -amount, 0, Or.inr ⟨rfl, rfl⟩, by rw [result, objective_raise], fun assignment => ?_⟩
    rw [result, solves_raise_iff regular other_proper.1 basic, ← sub_eq_add_neg, zero_add,
      (LinearForm.over_ne_of_not_mentions
        (regular.objective_settled.mentions_basic found)).eval_set]
    exact ⟨Iff.rfl, rfl⟩
  · refine ⟨_, amount, -(tableau.objective.coefficient constraint.markers.marker * amount),
      Or.inl ⟨rfl, rfl⟩, by rw [result]; rfl, fun assignment => ?_⟩
    rw [result, solves_advance_iff marker_proper.1 free,
      tableau.objective.eval_set marker_proper.1]
    exact ⟨Iff.rfl, by ring⟩

theorem Regular.shift (regular : tableau.Regular kinds) (markers : Markers) (amount : Rat) :
    (tableau.shift markers amount).Regular kinds := by
  rcases tableau.shift_cases markers amount with ⟨basic, result⟩ | ⟨basic, result⟩ | ⟨_, result⟩
  · rw [result]
    exact regular.raise basic _
  · rw [result]
    exact regular.raise basic _
  · rw [result]
    exact regular.advance _ _

/-- No row comes or goes when a target moves. -/
theorem form?_shift_eq_none_iff (tableau : Tableau Rat) (markers : Markers) (amount : Rat)
    (symbol : Symbol) :
    (tableau.shift markers amount).form? symbol = none ↔ tableau.form? symbol = none := by
  have moved : ∃ change : Symbol × LinearForm Rat → LinearForm Rat,
      (tableau.shift markers amount).equations =
        tableau.equations.map fun row => (row.1, change row) := by
    rcases tableau.shift_cases markers amount with ⟨basic, result⟩ | ⟨basic, result⟩ | ⟨_, result⟩
    · exact ⟨_, by rw [result, equations_raise basic]⟩
    · exact ⟨_, by rw [result, equations_raise basic]⟩
    · exact ⟨_, by rw [result, equations_advance]⟩
  obtain ⟨change, changed⟩ := moved
  rw [form?_eq_none_iff, form?_eq_none_iff, changed, List.forall_mem_map]

theorem Elastic.tidy_shift (elastic : Elastic kinds constraint) (tidy : tableau.Tidy kinds)
    (regular : tableau.Regular kinds) (amount : Rat) :
    (tableau.shift constraint.markers amount).Tidy kinds := by
  obtain ⟨other_proper, other_kind⟩ := elastic.fit.markers.other_proper elastic.soft
  rcases tableau.shift_cases constraint.markers amount with
    ⟨_, result⟩ | ⟨_, result⟩ | ⟨_, result⟩
  · rw [result]
    exact tidy.raise elastic.fit.markers.marker_proper elastic.fit.marker_internal _
  · rw [result]
    refine tidy.raise other_proper ?_ _
    simp [Symbol.isExternal, Symbol.isOf, other_kind]
  · rw [result]
    exact tidy.pass regular (notes_advanceRow _ _) _

theorem Alert.shift (alert : tableau.Alert) (markers : Markers) (amount : Rat) :
    (tableau.shift markers amount).Alert := by
  rcases tableau.shift_cases markers amount with ⟨_, result⟩ | ⟨_, result⟩ | ⟨_, result⟩
  · rw [result]
    exact alert.raise _ _
  · rw [result]
    exact alert.raise _ _
  · rw [result]
    exact alert.pass (notes_advanceRow _ _) _

variable {constraint : Constraint Rat} {ledger : Ledger}

/-- How the balances and the prices of the entries move with a target. -/
theorem Elastic.balance_set (elastic : Elastic kinds constraint) {symbol : Symbol}
    {move amount : Rat}
    (which : (symbol = constraint.markers.marker ∧ move = amount) ∨
      (symbol = constraint.markers.other ∧ move = -amount)) (assignment : Assignment) :
    constraint.balance (assignment.set symbol.id (assignment symbol.id + move)) =
        constraint.balance assignment - amount ∧
      constraint.price (assignment.set symbol.id (assignment symbol.id + move)) =
        constraint.strength.weight * move + constraint.price assignment ∧
      constraint.Owns symbol.id := by
  have marker_proper := elastic.fit.markers.marker_proper
  have other_proper := (elastic.fit.markers.other_proper elastic.soft).1
  have apart := elastic.fit.markers.apart
  have expression : constraint.Owns symbol.id →
      constraint.expression.eval (assignment.set symbol.id (assignment symbol.id + move)) =
        constraint.expression.eval assignment := fun owned =>
    LinearForm.Over.eval_set (elastic.fit.expression_avoids
      (elastic.fit.kind_ne_external owned)) _ _
  rcases which with ⟨rfl, rfl⟩ | ⟨rfl, rfl⟩
  · have owned : constraint.Owns constraint.markers.marker.id := elastic.fit.owns_marker
    refine ⟨?_, ?_, owned⟩
    · rw [Constraint.balance_eq, Constraint.balance_eq, elastic.sign, expression owned,
        Symbol.under_set_of_ne apart, Symbol.under_of_ne_zero marker_proper.1,
        Symbol.under_of_ne_zero marker_proper.1, Assignment.set_same]
      ring
    · rw [Constraint.price, Constraint.price, elastic.missed_eq, elastic.missed_eq,
        Symbol.under_set_of_ne apart, Symbol.under_of_ne_zero marker_proper.1,
        Symbol.under_of_ne_zero marker_proper.1, Assignment.set_same]
      ring
  · have owned : constraint.Owns constraint.markers.other.id := ⟨other_proper.1, Or.inr rfl⟩
    refine ⟨?_, ?_, owned⟩
    · rw [Constraint.balance_eq, Constraint.balance_eq, elastic.sign, expression owned,
        Symbol.under_set_of_ne apart.symm, Symbol.under_of_ne_zero other_proper.1,
        Symbol.under_of_ne_zero other_proper.1, Assignment.set_same]
      ring
    · rw [Constraint.price, Constraint.price, elastic.missed_eq, elastic.missed_eq,
        Symbol.under_set_of_ne apart.symm, Symbol.under_of_ne_zero other_proper.1,
        Symbol.under_of_ne_zero other_proper.1, Assignment.set_same]
      ring

/-- Moving a target lowers the expression of the equality in the ledger. -/
theorem Elastic.means_shift (elastic : Elastic kinds constraint)
    (regular : tableau.Regular kinds)
    (ledger_regular : Ledger.Regular kinds (constraint :: ledger))
    (means : tableau.Means (constraint :: ledger)) (amount : Rat) :
    (tableau.shift constraint.markers amount).Means (constraint.lowered amount :: ledger) := by
  obtain ⟨symbol, move, gain, which, _, moves⟩ := elastic.solves_shift regular amount
  intro assignment
  obtain ⟨balance, _, owned⟩ := elastic.balance_set which assignment
  rw [(moves assignment).1, means, List.forall_mem_cons, List.forall_mem_cons, balance,
    Constraint.balance_lowered]
  refine and_congr_right fun _ => forall₂_congr fun entry member => ?_
  rw [(ledger_regular.avoids member owned).balance_set owned.1]

/-- Moving a target changes the objective by an amount that nothing reads. -/
theorem Elastic.prices_shift (elastic : Elastic kinds constraint)
    (regular : tableau.Regular kinds)
    (ledger_regular : Ledger.Regular kinds (constraint :: ledger))
    (prices : tableau.Prices (constraint :: ledger)) (amount : Rat) :
    (tableau.shift constraint.markers amount).Prices (constraint.lowered amount :: ledger) := by
  obtain ⟨symbol, move, gain, which, objective, moves⟩ := elastic.solves_shift regular amount
  obtain ⟨drift, priced⟩ := prices
  refine ⟨gain + drift + constraint.strength.weight * move, fun assignment solves => ?_⟩
  obtain ⟨_, price, owned⟩ := elastic.balance_set which assignment
  rw [(moves assignment).1] at solves
  rw [objective, (moves assignment).2, priced _ solves, Ledger.price_cons, Ledger.price_cons,
    price, Constraint.price_lowered, Ledger.price_set owned.1
      fun entry member => ledger_regular.not_owns member owned]
  ring

end Tableau

end SoftSimplex
