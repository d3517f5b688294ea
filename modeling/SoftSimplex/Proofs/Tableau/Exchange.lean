import SoftSimplex.Proofs.Tableau.Solutions

/-!
# Exchanging a symbol

A form is solved for one of its symbols, and the solved form replaces the symbol everywhere. If
the solved form is filed as a row, the solutions are those of the other rows that satisfy the
equation which was solved. If it is not, the symbol is gone and the equation with it: the
solutions are those that some number for the symbol completes.
-/

namespace SoftSimplex.Tableau

variable {kinds : Nat → Symbol.Kind}

/-- A regular tableau and an equation between a form in its free symbols and another free symbol
or none, which is to be solved for a symbol of the form. -/
structure Exchange (kinds : Nat → Symbol.Kind) (base : Tableau Rat) (form : LinearForm Rat)
    (entering leaving : Symbol) : Prop where
  regular : base.Regular kinds
  settled : base.Settled kinds form
  proper : entering.Proper kinds
  mentioned : form.mentions entering = true
  leaving_free : leaving.isNull = false → base.Free kinds leaving
  leaving_apart : form.mentions leaving = false

/-- The equation brings no external symbol in. -/
def Internal (form : LinearForm Rat) (leaving : Symbol) : Prop :=
  (form.Over fun symbol => symbol.isExternal = false) ∧ leaving.isExternal = false

/-- The rows that must not get external symbols do not mention the entering one. -/
def Aside (base : Tableau Rat) (entering : Symbol) : Prop :=
  (∀ row ∈ base.equations, row.1.isExternal = false → row.2.mentions entering = false) ∧
    base.objective.mentions entering = false

/-- An external symbol is not mentioned where external symbols must not be. -/
theorem Regular.aside_of_isExternal {base : Tableau Rat} (regular : base.Regular kinds)
    {entering : Symbol} (proper : entering.Proper kinds)
    (is_external : entering.isExternal = true) : base.Aside entering := by
  have unmentioned : ∀ form : LinearForm Rat, form.Over (Symbol.Proper kinds) →
      (form.Over fun symbol => symbol.isExternal = false) →
        form.mentions entering = false := by
    intro form spanned confined
    rw [LinearForm.mentions_eq_false_iff]
    intro term member same
    have equal := (spanned term member).eq_of_id_eq proper same
    have inside := confined term member
    rw [equal, is_external] at inside
    exact Bool.noConfusion inside
  refine ⟨fun row member internal => ?_, ?_⟩
  · exact unmentioned row.2 (regular.settled row member).proper
      (regular.confined row member internal)
  · exact unmentioned base.objective regular.objective_settled.proper regular.objective_confined

/-- A pivot files the equation that was solved, whatever else is in the tableau. -/
theorem solves_pivot_iff_of_free {base : Tableau Rat} {form : LinearForm Rat} {entering : Symbol}
    (free : base.form? entering = none) (nonzero : form.coefficient entering ≠ 0)
    (leaving : Symbol) (assignment : Assignment) :
    Solves assignment (base.pivot form entering leaving) ↔
      Solves assignment base ∧ leaving.under assignment = form.eval assignment := by
  have apart := (base.form?_eq_none_iff entering).mp free
  rw [← LinearForm.under_eq_isolate_iff nonzero]
  constructor
  · intro solves
    have solved : entering.under assignment =
        (form.isolate entering leaving).eval assignment := by
      refine solves.under_eq ?_
      rw [form?_pivot, if_pos rfl]
    refine ⟨fun row member => ?_, solved⟩
    have found : (base.pivot form entering leaving).form? row.1 =
        some (row.2.substitute entering (form.isolate entering leaving)) := by
      rw [form?_pivot, if_neg (apart row member), form?_of_mem member, Option.map_some]
    rw [solves.under_eq found, LinearForm.eval_substitute, solved, sub_self, mul_zero, add_zero]
  · rintro ⟨solves, solved⟩ row member
    rcases mem_equations_pivot free member with rfl | ⟨before, inside, rfl⟩
    · exact solved
    · rw [LinearForm.eval_substitute, solved, sub_self, mul_zero, add_zero]
      exact solves before inside

namespace Exchange

variable {base : Tableau Rat} {form : LinearForm Rat} {entering leaving : Symbol}

theorem coefficient_ne_zero (exchange : base.Exchange kinds form entering leaving) :
    form.coefficient entering ≠ 0 :=
  exchange.settled.reduced.coefficient_ne_zero exchange.mentioned

theorem entering_free (exchange : base.Exchange kinds form entering leaving) :
    base.form? entering = none := by
  obtain ⟨term, member, same, _⟩ := LinearForm.exists_term_of_mentions exchange.mentioned
  rw [← base.form?_congr same]
  exact (exchange.settled.free term member).2

theorem leaving_ne (exchange : base.Exchange kinds form entering leaving) :
    leaving.id ≠ entering.id :=
  (LinearForm.id_ne_of_mentions exchange.mentioned exchange.leaving_apart).symm

/-- The solved form is written in the other free symbols. -/
theorem definition_over (exchange : base.Exchange kinds form entering leaving) :
    (form.isolate entering leaving).Over fun symbol =>
      base.Free kinds symbol ∧ symbol.id ≠ entering.id :=
  LinearForm.Over.isolate (exchange.settled.free.mono fun _ free apart => ⟨free, apart⟩)
    fun present => ⟨exchange.leaving_free present, exchange.leaving_ne⟩

theorem definition_internal (_ : base.Exchange kinds form entering leaving)
    (internal : Internal form leaving) :
    (form.isolate entering leaving).Over fun symbol => symbol.isExternal = false :=
  LinearForm.Over.isolate (internal.1.mono fun _ inside _ => inside) fun _ => internal.2

theorem definition_reduced (exchange : base.Exchange kinds form entering leaving) :
    (form.isolate entering leaving).Reduced :=
  exchange.settled.reduced.isolate entering leaving

/-- The equation holds exactly if the entering symbol has the value of the solved form. -/
theorem under_eq_definition_iff (exchange : base.Exchange kinds form entering leaving)
    (assignment : Assignment) :
    entering.under assignment = (form.isolate entering leaving).eval assignment ↔
      leaving.under assignment = form.eval assignment :=
  LinearForm.under_eq_isolate_iff exchange.coefficient_ne_zero leaving assignment

/-- The solved form does not depend on the entering symbol. -/
theorem eval_definition_set (exchange : base.Exchange kinds form entering leaving)
    (assignment : Assignment) (number : Rat) :
    (form.isolate entering leaving).eval (assignment.set entering.id number) =
      (form.isolate entering leaving).eval assignment :=
  (exchange.definition_over.mono fun _ both => both.2).eval_set assignment number

/-- Some number for the entering symbol makes the equation hold, and there is only one. -/
theorem equation_set_iff (exchange : base.Exchange kinds form entering leaving)
    (assignment : Assignment) (number : Rat) :
    leaving.under (assignment.set entering.id number) =
        form.eval (assignment.set entering.id number) ↔
      number = (form.isolate entering leaving).eval assignment := by
  rw [← exchange.under_eq_definition_iff, exchange.eval_definition_set,
    Symbol.under_of_ne_zero exchange.proper.1, Assignment.set_same]

/-- A form in which the symbol has been replaced mentions the other free symbols only. -/
theorem settled_substitute (exchange : base.Exchange kinds form entering leaving)
    {other : LinearForm Rat} (settled : base.Settled kinds other) :
    (other.substitute entering (form.isolate entering leaving)).Over fun symbol =>
      base.Free kinds symbol ∧ symbol.id ≠ entering.id :=
  LinearForm.Over.substitute (settled.free.mono fun _ free apart => ⟨free, apart⟩)
    exchange.definition_over

/-- Replacing the symbol gives a form the value it has when the equation holds. -/
theorem eval_substitute (exchange : base.Exchange kinds form entering leaving)
    (other : LinearForm Rat) (assignment : Assignment) :
    (other.substitute entering (form.isolate entering leaving)).eval assignment =
      other.eval (assignment.set entering.id
        ((form.isolate entering leaving).eval assignment)) := by
  rw [LinearForm.eval_substitute, other.eval_set exchange.proper.1,
    Symbol.under_of_ne_zero exchange.proper.1]

theorem form?_eliminate_eq_none_iff (symbol : Symbol) (definition : LinearForm Rat)
    (other : Symbol) :
    (base.eliminate symbol definition).form? other = none ↔ base.form? other = none := by
  rw [form?_eliminate, Option.map_eq_none_iff]

/-- External symbols stay where they may be, because the solved form has none or replaces nothing
where they must not be. -/
theorem confined_substitute (exchange : base.Exchange kinds form entering leaving)
    {other : LinearForm Rat} (confined : other.Over fun symbol => symbol.isExternal = false)
    (apart : Internal form leaving ∨ other.mentions entering = false) :
    (other.substitute entering (form.isolate entering leaving)).Over fun symbol =>
      symbol.isExternal = false := by
  rcases apart with internal | unmentioned
  · exact LinearForm.Over.substitute (confined.mono fun _ inside _ => inside)
      (exchange.definition_internal internal)
  · rw [LinearForm.substitute_of_not_mentions unmentioned]
    exact confined

/-- Eliminating the symbol leaves a regular tableau. -/
theorem regular_eliminate (exchange : base.Exchange kinds form entering leaving)
    (confined : Internal form leaving ∨ base.Aside entering) :
    (base.eliminate entering (form.isolate entering leaving)).Regular kinds := by
  have settle : ∀ other, base.Settled kinds other →
      (base.eliminate entering (form.isolate entering leaving)).Settled kinds
        (other.substitute entering (form.isolate entering leaving)) := by
    intro other settled
    refine ⟨(exchange.settled_substitute settled).mono fun symbol both => ?_,
      settled.reduced.substitute _ _⟩
    exact ⟨both.1.1, (form?_eliminate_eq_none_iff _ _ _).mpr both.1.2⟩
  have regular := exchange.regular
  constructor
  · intro row member
    rw [equations_eliminate] at member
    obtain ⟨before, inside, rfl⟩ := List.mem_map.mp member
    exact regular.proper before inside
  · intro row member
    rw [equations_eliminate] at member
    obtain ⟨before, inside, rfl⟩ := List.mem_map.mp member
    exact settle before.2 (regular.settled before inside)
  · intro row member internal
    rw [equations_eliminate] at member
    obtain ⟨before, inside, rfl⟩ := List.mem_map.mp member
    exact exchange.confined_substitute (regular.confined before inside internal)
      (confined.imp_right fun aside => aside.1 before inside internal)
  · exact settle base.objective regular.objective_settled
  · exact exchange.confined_substitute regular.objective_confined
      (confined.imp_right fun aside => aside.2)

/-- After elimination an assignment is a solution if it was one with the number that the equation
gives the symbol. -/
theorem solves_eliminate_iff (exchange : base.Exchange kinds form entering leaving)
    (assignment : Assignment) :
    Solves assignment (base.eliminate entering (form.isolate entering leaving)) ↔
      Solves (assignment.set entering.id ((form.isolate entering leaving).eval assignment))
        base := by
  have apart := (base.form?_eq_none_iff entering).mp exchange.entering_free
  unfold Solves
  rw [equations_eliminate]
  simp only [List.forall_mem_map, exchange.eval_substitute]
  refine forall₂_congr fun row member => ?_
  rw [Symbol.under_set_of_ne (apart row member)]

/-- What is left of the equation is that some number for the symbol satisfies it. -/
theorem solves_eliminate_iff_exists (exchange : base.Exchange kinds form entering leaving)
    (assignment : Assignment) :
    Solves assignment (base.eliminate entering (form.isolate entering leaving)) ↔
      ∃ number, Solves (assignment.set entering.id number) base ∧
        leaving.under (assignment.set entering.id number) =
          form.eval (assignment.set entering.id number) := by
  rw [exchange.solves_eliminate_iff]
  simp only [exchange.equation_set_iff]
  constructor
  · intro solves
    exact ⟨_, solves, rfl⟩
  · rintro ⟨number, solves, rfl⟩
    exact solves

/-! ## Pivoting -/

/-- An external symbol that enters is not mentioned where external symbols must not be. -/
theorem internal_or_aside (exchange : base.Exchange kinds form entering leaving)
    (confined : entering.isExternal = true ∨ Internal form leaving) :
    Internal form leaving ∨ base.Aside entering := by
  rcases confined with is_external | internal
  · exact Or.inr (exchange.regular.aside_of_isExternal exchange.proper is_external)
  · exact Or.inl internal

/-- A pivot leaves a regular tableau. -/
theorem regular_pivot (exchange : base.Exchange kinds form entering leaving)
    (confined : entering.isExternal = true ∨ Internal form leaving) :
    (base.pivot form entering leaving).Regular kinds := by
  have regular := exchange.regular_eliminate (exchange.internal_or_aside confined)
  have settle : ∀ other : LinearForm Rat,
      (other.Over fun symbol => base.Free kinds symbol ∧ symbol.id ≠ entering.id) →
        other.Reduced → (base.pivot form entering leaving).Settled kinds other := by
    intro other spanned reduced
    refine ⟨spanned.mono fun symbol both => ⟨both.1.1, ?_⟩, reduced⟩
    rw [form?_pivot, if_neg both.2, both.1.2, Option.map_none]
  constructor
  · intro row member
    rcases mem_equations_pivot exchange.entering_free member with rfl | ⟨before, inside, rfl⟩
    · exact exchange.proper
    · exact exchange.regular.proper before inside
  · intro row member
    rcases mem_equations_pivot exchange.entering_free member with rfl | ⟨before, inside, rfl⟩
    · exact settle _ exchange.definition_over exchange.definition_reduced
    · have settled := exchange.regular.settled before inside
      exact settle _ (exchange.settled_substitute settled) (settled.reduced.substitute _ _)
  · intro row member internal
    rcases mem_equations_pivot exchange.entering_free member with rfl | ⟨before, inside, rfl⟩
    · rcases confined with is_external | is_internal
      · rw [is_external] at internal
        exact Bool.noConfusion internal
      · exact exchange.definition_internal is_internal
    · refine regular.confined (before.1, before.2.substitute entering _) ?_ internal
      rw [equations_eliminate]
      exact List.mem_map_of_mem inside
  · have settled := exchange.regular.objective_settled
    exact settle _ (exchange.settled_substitute settled) (settled.reduced.substitute _ _)
  · exact regular.objective_confined

/-- A pivot files the equation that was solved. -/
theorem solves_pivot_iff (exchange : base.Exchange kinds form entering leaving)
    (assignment : Assignment) :
    Solves assignment (base.pivot form entering leaving) ↔
      Solves assignment base ∧ leaving.under assignment = form.eval assignment :=
  solves_pivot_iff_of_free exchange.entering_free exchange.coefficient_ne_zero leaving assignment

/-- Where the equation holds, the pivot changes the value of no form. -/
theorem eval_substitute_of_equation (exchange : base.Exchange kinds form entering leaving)
    {assignment : Assignment} (equation : leaving.under assignment = form.eval assignment)
    (other : LinearForm Rat) :
    (other.substitute entering (form.isolate entering leaving)).eval assignment =
      other.eval assignment :=
  LinearForm.eval_substitute_isolate exchange.coefficient_ne_zero other equation

end Exchange

variable {tableau : Tableau Rat} {symbol : Symbol} {form : LinearForm Rat}

theorem free_discard {α : Type} {tableau : Tableau α} {symbol other : Symbol}
    (free : tableau.form? other = none) : (tableau.discard symbol).form? other = none := by
  rw [form?_discard]
  split
  · rfl
  · exact free

theorem Settled.discard (settled : tableau.Settled kinds form) (symbol : Symbol) :
    (tableau.discard symbol).Settled kinds form :=
  ⟨settled.free.mono fun _ free => ⟨free.1, free_discard free.2⟩, settled.reduced⟩

theorem Regular.discard (regular : tableau.Regular kinds) (symbol : Symbol) :
    (tableau.discard symbol).Regular kinds where
  proper row member :=
    regular.proper row ((tableau.mem_equations_discard_iff symbol row).mp member).1
  settled row member :=
    (regular.settled row ((tableau.mem_equations_discard_iff symbol row).mp member).1).discard _
  confined row member :=
    regular.confined row ((tableau.mem_equations_discard_iff symbol row).mp member).1
  objective_settled := by
    rw [objective_discard]
    exact regular.objective_settled.discard symbol
  objective_confined := by
    rw [objective_discard]
    exact regular.objective_confined

/-- The solutions are those of the other rows that satisfy the row given up. -/
theorem solves_discard_iff (found : tableau.form? symbol = some form) (assignment : Assignment) :
    Solves assignment tableau ↔ Solves assignment (tableau.discard symbol) ∧
      symbol.under assignment = form.eval assignment := by
  constructor
  · intro solves
    refine ⟨fun row member => ?_, solves.under_eq found⟩
    exact solves row ((tableau.mem_equations_discard_iff symbol row).mp member).1
  · rintro ⟨solves, holds⟩ row member
    by_cases same : row.1.id = symbol.id
    · have equal := form_eq_of_form? member ((tableau.form?_congr same).trans found)
      rw [equal, ← holds, Symbol.under_congr same]
    · exact solves row ((tableau.mem_equations_discard_iff symbol row).mpr ⟨member, same⟩)

/-- The row of a symbol as an equation to be solved. -/
theorem Regular.exchange (regular : tableau.Regular kinds) {leaving entering : Symbol}
    (leaving_proper : leaving.Proper kinds) (found : tableau.form? leaving = some form)
    (proper : entering.Proper kinds) (mentioned : form.mentions entering = true) :
    (tableau.discard leaving).Exchange kinds form entering leaving where
  regular := regular.discard leaving
  settled := (regular.settled_of_form? found).discard leaving
  proper := proper
  mentioned := mentioned
  leaving_free _ := ⟨leaving_proper, by rw [form?_discard, if_pos rfl]⟩
  leaving_apart := (regular.settled_of_form? found).mentions_basic found

/-- Exchanging a basic symbol for one in its row keeps the solutions. -/
theorem Exchange.solves_pivot_discard_iff {leaving entering : Symbol}
    (exchange : (tableau.discard leaving).Exchange kinds form entering leaving)
    (found : tableau.form? leaving = some form) (assignment : Assignment) :
    Solves assignment ((tableau.discard leaving).pivot form entering leaving) ↔
      Solves assignment tableau := by
  rw [exchange.solves_pivot_iff, ← solves_discard_iff found]

/-- Exchanging a basic symbol for a free one keeps the solutions, whatever else is in the
tableau. -/
theorem solves_exchange_iff_of_free {leaving entering : Symbol}
    (found : tableau.form? leaving = some form) (free : tableau.form? entering = none)
    (nonzero : form.coefficient entering ≠ 0) (assignment : Assignment) :
    Solves assignment ((tableau.discard leaving).pivot form entering leaving) ↔
      Solves assignment tableau := by
  rw [solves_pivot_iff_of_free (free_discard free) nonzero, ← solves_discard_iff found]

end SoftSimplex.Tableau
