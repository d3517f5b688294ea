import SoftSimplex.Proofs.Tableau.Phase

/-!
# An artificial symbol

An artificial symbol is made basic with the row of a constraint, so that it has the value by which
the constraint fails. Once it is free again, forgetting it holds this value at zero, which enters
the constraint. That it can be made free is a matter of what the tableau depends on: the row
depends on a symbol that is no dummy, the pivots leave the dummies without rows as they are, and
so the artificial symbol cannot come to depend on dummies alone.
-/

namespace SoftSimplex.Tableau

variable {kinds : Nat → Symbol.Kind} {base tableau : Tableau Rat} {form : LinearForm Rat}
  {artificial : Symbol}

/-- A regular tableau with a row that is to be filed under a symbol which does not occur yet. -/
structure Posed (kinds : Nat → Symbol.Kind) (base : Tableau Rat) (form : LinearForm Rat)
    (artificial : Symbol) : Prop where
  regular : base.Regular kinds
  settled : base.Settled kinds form
  confined : form.Over fun symbol => symbol.isExternal = false
  proper : artificial.Proper kinds
  foreign : base.Foreign artificial
  objective : base.objective.mentions artificial = false
  apart : form.mentions artificial = false

namespace Posed

theorem form?_eq_none_iff (_ : base.Posed kinds form artificial) (symbol : Symbol) :
    (base.put artificial form).form? symbol = none ↔
      symbol.id ≠ artificial.id ∧ base.form? symbol = none := by
  rw [form?_put]
  split
  · rename_i same
    simp [same]
  · rename_i elsewhere
    exact (and_iff_right elsewhere).symm

theorem settle (posed : base.Posed kinds form artificial) {other : LinearForm Rat}
    (settled : base.Settled kinds other) (unmentioned : other.mentions artificial = false) :
    (base.put artificial form).Settled kinds other := by
  refine ⟨fun term member => ?_, settled.reduced⟩
  have free := settled.free term member
  exact ⟨free.1, (posed.form?_eq_none_iff term.1).mpr
    ⟨LinearForm.over_ne_of_not_mentions unmentioned term member, free.2⟩⟩

theorem mem_equations_put (posed : base.Posed kinds form artificial)
    {row : Symbol × LinearForm Rat} (member : row ∈ (base.put artificial form).equations) :
    row = (artificial, form) ∨ row ∈ base.equations := by
  rcases Tableau.mem_equations_put member with ⟨inside, _⟩ | ⟨same, is_form, origin⟩
  · exact Or.inr inside
  · rcases origin with is_symbol | ⟨earlier, before⟩
    · exact Or.inl (Prod.ext is_symbol is_form)
    · exact absurd same (posed.foreign _ before).1

theorem regular_put (posed : base.Posed kinds form artificial) :
    (base.put artificial form).Regular kinds := by
  constructor
  · intro row member
    rcases posed.mem_equations_put member with rfl | inside
    · exact posed.proper
    · exact posed.regular.proper row inside
  · intro row member
    rcases posed.mem_equations_put member with rfl | inside
    · exact posed.settle posed.settled posed.apart
    · exact posed.settle (posed.regular.settled row inside) (posed.foreign row inside).2
  · intro row member internal
    rcases posed.mem_equations_put member with rfl | inside
    · exact posed.confined
    · exact posed.regular.confined row inside internal
  · exact posed.settle posed.regular.objective_settled posed.objective
  · exact posed.regular.objective_confined

theorem solves_put_iff (posed : base.Posed kinds form artificial) (assignment : Assignment) :
    Solves assignment (base.put artificial form) ↔
      Solves assignment base ∧ artificial.under assignment = form.eval assignment := by
  constructor
  · intro solves
    refine ⟨fun row member => solves.under_eq ?_, solves.under_eq ?_⟩
    · rw [form?_put, if_neg (posed.foreign row member).1, form?_of_mem member]
    · rw [form?_put, if_pos rfl]
  · rintro ⟨solves, holds⟩ row member
    rcases posed.mem_equations_put member with rfl | inside
    · exact holds
    · exact solves row inside

/-- Forgetting the artificial symbol, once it is free, enters the constraint. -/
theorem solves_forget_iff (posed : base.Posed kinds form artificial)
    (equivalent : (base.put artificial form).Equivalent kinds tableau)
    (free : tableau.form? artificial = none) (assignment : Assignment) :
    Solves assignment (tableau.forget artificial) ↔
      Solves assignment base ∧ form.eval assignment = 0 := by
  rw [Tableau.solves_forget_iff posed.proper.1 free, equivalent.solves_iff, posed.solves_put_iff,
    posed.foreign.solves_set_iff, Symbol.under_of_ne_zero posed.proper.1, Assignment.set_same,
    (LinearForm.over_ne_of_not_mentions posed.apart).eval_set, eq_comm]

theorem eval_objective_forget (posed : base.Posed kinds form artificial)
    (equivalent : (base.put artificial form).Equivalent kinds tableau)
    (free : tableau.form? artificial = none) {assignment : Assignment}
    (solves : Solves assignment (tableau.forget artificial)) :
    (tableau.forget artificial).objective.eval assignment = base.objective.eval assignment := by
  rw [Tableau.solves_forget_iff posed.proper.1 free, equivalent.solves_iff] at solves
  rw [objective_forget, eval_without_eq_eval_set _ posed.proper.1,
    equivalent.eval_objective _ solves, objective_put,
    (LinearForm.over_ne_of_not_mentions posed.objective).eval_set]

/-- If the form depends on some symbol other than a dummy, the artificial symbol's row does not
depend on dummies alone after any pivots of the primal phase. -/
theorem exists_restricted (posed : base.Posed kinds form artificial)
    {goal? : Option (LinearForm Rat)} {now : Descent Rat}
    (sound : Descent.Sound kinds ⟨base.put artificial form, goal?⟩ now)
    {term : Symbol × Rat} (member : term ∈ form.terms) (not_dummy : term.1.isDummy = false)
    {remaining : LinearForm Rat} (found : now.tableau.form? artificial = some remaining)
    (internal : artificial.isExternal = false) :
    ∃ other ∈ remaining.terms, other.1.isRestricted = true := by
  have regular := posed.regular_put
  have regular_now := sound.equivalent.regular
  have settled := regular_now.settled_of_form? found
  have confined := regular_now.confined _
    (regular_now.mem_equations posed.proper found) internal
  have term_free := posed.settled.free term member
  by_contra none_restricted
  -- Raising the symbol of the term changes the artificial symbol, but no free dummy.
  let raised := Assignment.zero.set term.1.id 1
  have values : ∀ given, remaining.eval ((base.put artificial form).complete given) =
      form.eval given := by
    intro given
    have solves := regular.solves_complete given
    have solves_now := (sound.equivalent.solves_iff _).mpr solves
    have artificial_form : (base.put artificial form).form? artificial = some form := by
      rw [form?_put, if_pos rfl]
    rw [← solves_now.under_eq found, solves.under_eq artificial_form,
      (regular.settled_of_form? artificial_form).eval_complete]
  have same : remaining.eval ((base.put artificial form).complete raised) =
      remaining.eval ((base.put artificial form).complete Assignment.zero) := by
    refine congrArg (remaining.constant + ·) (SlotTable.total_congr _ fun other inside => ?_)
    have proper := (settled.free other inside).1
    have is_dummy : other.1.isDummy = true := by
      have not_restricted : ¬ other.1.isRestricted = true := fun restricted =>
        none_restricted ⟨other, inside, restricted⟩
      have not_external := confined other inside
      rw [Symbol.isRestricted_eq_true_iff] at not_restricted
      rw [Symbol.isDummy, Symbol.isOf_eq_true_iff]
      cases kind : other.1.kind with
      | external => simp [Symbol.isExternal, Symbol.isOf, Symbol.isNull, proper.1, kind]
          at not_external
      | slack => exact absurd ⟨proper.1, Or.inl kind⟩ not_restricted
      | error => exact absurd ⟨proper.1, Or.inr kind⟩ not_restricted
      | dummy => exact ⟨proper.1, rfl⟩
    have free := (sound.dummies other.1 proper is_dummy).mp (settled.free other inside).2
    have elsewhere : other.1.id ≠ term.1.id := by
      intro named
      rw [proper.eq_of_id_eq term_free.1 named, not_dummy] at is_dummy
      exact Bool.noConfusion is_dummy
    rw [under_complete_of_free free, under_complete_of_free free]
    exact Symbol.under_set_of_ne elsewhere _ _
  rw [values, values, form.eval_set term_free.1.1] at same
  have nonzero := posed.settled.reduced term member
  rw [LinearForm.coefficient_of_mem member] at same
  simp [Assignment.zero] at same
  exact nonzero same

/-- The exchange that makes the artificial symbol free. -/
theorem exchange_artificial (posed : base.Posed kinds form artificial)
    (equivalent : (base.put artificial form).Equivalent kinds tableau)
    (internal : artificial.isExternal = false) {remaining : LinearForm Rat} {entering : Symbol}
    (found : tableau.form? artificial = some remaining)
    (chosen : remaining.restricted? = some entering) :
    (tableau.discard artificial).Exchange kinds remaining entering artificial ∧
      Internal remaining artificial := by
  obtain ⟨_, coefficient, member⟩ := LinearForm.of_restricted?_eq_some chosen
  have regular := equivalent.regular
  refine ⟨regular.exchange posed.proper found ?_ (LinearForm.mentions_of_mem member),
    regular.confined _ (regular.mem_equations posed.proper found) internal, internal⟩
  exact (regular.settled_of_form? found).proper _ member

end Posed

end SoftSimplex.Tableau
