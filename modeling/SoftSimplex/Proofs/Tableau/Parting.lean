import SoftSimplex.Proofs.Tableau.Feasibility

/-!
# Parted descents

What a pivot of the primal phase needs and keeps when nothing is known of the kinds of symbols:
all symbols lie in a range of numbers, the rows and the goal store no zero coefficient, and no
basic symbol occurs in them. External symbols may occur anywhere. Under exact arithmetic the pivot
keeps the solutions, and the values of the goal on them.
-/

namespace SoftSimplex.Tableau

variable {inside : Nat → Prop} {tableau : Tableau Rat} {form other : LinearForm Rat}
  {entering leaving : Symbol}

/-- The form stores no zero coefficient, and its symbols lie in a range and have no row. -/
structure Apart (inside : Nat → Prop) (tableau : Tableau Rat) (form : LinearForm Rat) : Prop where
  free : form.Over fun symbol => inside symbol.id ∧ tableau.form? symbol = none
  reduced : form.Reduced

namespace Apart

section Exchange

variable (apart : tableau.Apart inside form) (found : tableau.form? leaving = some form)
  (within : inside leaving.id) (free : tableau.form? entering = none)

include apart found within free

theorem isolate :
    ((tableau.discard leaving).pivot form entering leaving).Apart inside
      (form.isolate entering leaving) :=
  ⟨over_isolate_exchange apart.free found within free, apart.reduced.isolate entering leaving⟩

/-- A form stays apart from the basis if the entering symbol is replaced in it. -/
theorem substitute (other_apart : tableau.Apart inside other) :
    ((tableau.discard leaving).pivot form entering leaving).Apart inside
      (other.substitute entering (form.isolate entering leaving)) :=
  ⟨over_substitute_exchange apart.free found within free other_apart.free,
    other_apart.reduced.substitute _ _⟩

end Exchange

end Apart

namespace Descent

variable {now following : Descent Rat}

/-- The basic symbols lie in a range, and the rows and the goal are apart from them. -/
structure Parted (inside : Nat → Prop) (now : Descent Rat) : Prop where
  basic : ∀ row ∈ now.tableau.equations, inside row.1.id
  rows : ∀ row ∈ now.tableau.equations, now.tableau.Apart inside row.2
  goal : now.tableau.Apart inside now.goal

/-- The exchange that the next pivot makes: the entering symbol is free and lowers the goal, and
the row that leaves falls when it grows. -/
structure Exchanges (now : Descent Rat) (form : LinearForm Rat) (entering leaving : Symbol) :
    Prop where
  chosen : now.goal.entering? = some entering
  found : now.tableau.form? leaving = some form
  left : now.tableau.leaving? entering = some leaving
  free : now.tableau.form? entering = none
  lowers : now.goal.coefficient entering < 0
  falls : form.coefficient entering < 0

namespace Parted

theorem row_of_form? (parted : now.Parted inside) (found : now.tableau.form? leaving = some form) :
    inside leaving.id ∧ now.tableau.Apart inside form := by
  obtain ⟨row, member, same, rfl⟩ := (now.tableau.form?_eq_some_iff leaving form).mp found
  exact ⟨same ▸ parted.basic row member, parted.rows row member⟩

theorem exchanges (parted : now.Parted inside) (moves : now.step = .next following) :
    ∃ form entering leaving, now.Exchanges form entering leaving ∧
      following = ⟨(now.tableau.discard leaving).pivot form entering leaving,
        now.goal?.map fun goal => goal.substitute entering (form.isolate entering leaving)⟩ := by
  obtain ⟨entering, leaving, form, chosen, left, found, result⟩ := of_step_eq_next moves
  obtain ⟨amount, in_goal, _, negative⟩ := LinearForm.of_entering?_eq_some chosen
  obtain ⟨form', coefficient, member, _, mentioned, _⟩ := of_leaving?_eq_some left
  obtain rfl : form' = form := form_eq_of_form? member found
  obtain rfl := LinearForm.coefficient_of_eq_some mentioned
  have nonzero : form'.coefficient entering ≠ 0 :=
    (parted.rows _ member).reduced.coefficient_ne_zero
      (by rw [LinearForm.mentions_eq_isSome, mentioned, Option.isSome_some])
  refine ⟨form', entering, leaving,
    ⟨chosen, found, left, (parted.goal.free _ in_goal).2, ?_, ?_⟩, result⟩
  · rw [LinearForm.coefficient_of_mem in_goal]
    exact negative
  · exact (falls_of_leaving? left found nonzero).2.2

/-- The goal after a pivot. -/
theorem goal_following :
    (⟨(now.tableau.discard leaving).pivot form entering leaving,
      now.goal?.map fun goal => goal.substitute entering (form.isolate entering leaving)⟩ :
        Descent Rat).goal = now.goal.substitute entering (form.isolate entering leaving) :=
  now.goal_substitute entering _ _ (by rw [objective_pivot, objective_discard])

/-- A pivot brings no symbol in, and keeps rows and goal reduced and apart from the basis. -/
theorem step (parted : now.Parted inside) (moves : now.step = .next following) :
    following.Parted inside := by
  obtain ⟨form, entering, leaving, exchanges, rfl⟩ := parted.exchanges moves
  obtain ⟨within, apart⟩ := parted.row_of_form? exchanges.found
  have entering_within : inside entering.id := by
    obtain ⟨term, member, same, _⟩ := LinearForm.exists_term_of_mentions
      (LinearForm.mentions_of_coefficient_ne_zero exchanges.falls.ne)
    exact same ▸ (apart.free term member).1
  have free : (now.tableau.discard leaving).form? entering = none := free_discard exchanges.free
  constructor
  · intro row member
    rcases mem_equations_pivot free member with rfl | ⟨before, earlier, rfl⟩
    · exact entering_within
    · exact parted.basic before ((mem_equations_discard_iff _ _ _).mp earlier).1
  · intro row member
    rcases mem_equations_pivot free member with rfl | ⟨before, earlier, rfl⟩
    · exact apart.isolate exchanges.found within exchanges.free
    · exact apart.substitute exchanges.found within exchanges.free
        (parted.rows before ((mem_equations_discard_iff _ _ _).mp earlier).1)
  · rw [goal_following]
    exact apart.substitute exchanges.found within exchanges.free parted.goal

end Parted

/-- A pivot keeps the solutions. -/
theorem Exchanges.solves_iff (exchanges : now.Exchanges form entering leaving)
    (assignment : Assignment) :
    Solves assignment ((now.tableau.discard leaving).pivot form entering leaving) ↔
      Solves assignment now.tableau :=
  solves_exchange_iff_of_free exchanges.found exchanges.free exchanges.falls.ne assignment

/-- A pivot keeps the value of every form on the solutions. -/
theorem Exchanges.eval_substitute (exchanges : now.Exchanges form entering leaving)
    {assignment : Assignment} (solves : Solves assignment now.tableau) (other : LinearForm Rat) :
    (other.substitute entering (form.isolate entering leaving)).eval assignment =
      other.eval assignment :=
  LinearForm.eval_substitute_isolate exchanges.falls.ne other (solves.under_eq exchanges.found)

end Descent

end SoftSimplex.Tableau
