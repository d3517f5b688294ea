import Mathlib.Data.Finset.Powerset
import Mathlib.Data.Set.Finite.Basic
import Mathlib.Order.Monotone.Basic
import SoftSimplex.Proofs.Tableau.Parting

/-!
# Progress of the primal phase

The symbol that enters is the first one found that lowers the goal, so no rule of precedence keeps
the phase from returning to a basis. What does is the goal: no pivot raises its constant, and a
pivot on a row whose constant is positive lowers it. The constant is the value of the goal at the
one solution in which all symbols without a row are zero. So it depends on the basis only, and
there are no more bases than sets of the symbols that the phase starts with.
-/

namespace SoftSimplex.Tableau

variable {inside : Nat → Prop}

/-- The numbers of the symbols that have a row. -/
def basis (tableau : Tableau Rat) : Finset Nat :=
  (tableau.equations.map fun row => row.1.id).toFinset

theorem not_mem_basis_iff (tableau : Tableau Rat) (symbol : Symbol) :
    symbol.id ∉ tableau.basis ↔ tableau.form? symbol = none := by
  simp [basis, form?_eq_none_iff]

namespace Descent

variable {start now other following : Descent Rat}

/-- The row that the next pivot takes out has a positive constant. -/
def Gains (now : Descent Rat) : Prop :=
  ∃ entering leaving form, now.goal.entering? = some entering ∧
    now.tableau.leaving? entering = some leaving ∧ now.tableau.form? leaving = some form ∧
      0 < form.constant

/-- Over a feasible tableau a pivot does not raise the constant of the goal, and lowers it if the
row that leaves has a positive constant. -/
theorem Parted.constant_step (parted : now.Parted inside) (feasible : now.tableau.Feasible)
    (moves : now.step = .next following) :
    following.goal.constant ≤ now.goal.constant ∧
      (now.Gains → following.goal.constant < now.goal.constant) := by
  obtain ⟨form, entering, leaving, exchanges, rfl⟩ := parted.exchanges moves
  have growth := feasible.growth_nonneg exchanges.left exchanges.found exchanges.falls.ne
  rw [Parted.goal_following, LinearForm.constant_substitute]
  constructor
  · rw [add_le_iff_nonpos_right]
    exact mul_nonpos_of_nonpos_of_nonneg exchanges.lowers.le growth
  · rintro ⟨entering', leaving', form', chosen, left, found, positive⟩
    obtain rfl := Option.some.inj (chosen.symm.trans exchanges.chosen)
    obtain rfl := Option.some.inj (left.symm.trans exchanges.left)
    obtain rfl := Option.some.inj (found.symm.trans exchanges.found)
    rw [add_lt_iff_neg_left, LinearForm.constant_isolate exchanges.falls.ne]
    exact mul_neg_of_neg_of_pos exchanges.lowers
      (div_pos_of_neg_of_neg (neg_neg_of_pos positive) exchanges.falls)

theorem Parted.feasible_step (parted : now.Parted inside) (feasible : now.tableau.Feasible)
    (moves : now.step = .next following) : following.tableau.Feasible := by
  obtain ⟨form, entering, leaving, exchanges, rfl⟩ := parted.exchanges moves
  exact feasible.exchange exchanges.left exchanges.found exchanges.falls.ne exchanges.free

/-- What every pivot keeps: the descent is parted and feasible, and it has the solutions it
started with and the values of the goal on them. -/
structure Lowers (inside : Nat → Prop) (start now : Descent Rat) : Prop where
  parted : now.Parted inside
  feasible : now.tableau.Feasible
  solves_iff : ∀ assignment, Solves assignment now.tableau ↔ Solves assignment start.tableau
  eval_goal : ∀ assignment, Solves assignment start.tableau →
    now.goal.eval assignment = start.goal.eval assignment

theorem Lowers.refl (parted : start.Parted inside) (feasible : start.tableau.Feasible) :
    Lowers inside start start :=
  ⟨parted, feasible, fun _ => Iff.rfl, fun _ _ => rfl⟩

theorem Lowers.step (lowers : Lowers inside start now) (moves : now.step = .next following) :
    Lowers inside start following := by
  have parted := lowers.parted.step moves
  have feasible := lowers.parted.feasible_step lowers.feasible moves
  obtain ⟨form, entering, leaving, exchanges, rfl⟩ := lowers.parted.exchanges moves
  refine ⟨parted, feasible, fun assignment => ?_, fun assignment solves => ?_⟩
  · exact (exchanges.solves_iff assignment).trans (lowers.solves_iff assignment)
  · rw [Parted.goal_following,
      exchanges.eval_substitute ((lowers.solves_iff assignment).mpr solves)]
    exact lowers.eval_goal assignment solves

theorem Lowers.iterate (lowers : Lowers inside start now) (steps : Nat) :
    Lowers inside start (SoftSimplex.iterate Descent.step steps now).state :=
  iterate_invariant (fun _ _ => Lowers.step) steps now lowers

/-- The goal has its constant as its value where all symbols without a row are zero. -/
theorem Parted.eval_goal (parted : now.Parted inside) {assignment : Assignment}
    (vanishes : ∀ id ∉ now.tableau.basis, assignment id = 0) :
    now.goal.eval assignment = now.goal.constant := by
  rw [← now.goal.eval_zero]
  refine LinearForm.eval_congr parted.goal.free fun symbol free => ?_
  have zero := vanishes symbol.id ((now.tableau.not_mem_basis_iff symbol).mpr free.2)
  rw [Symbol.under_zero, Symbol.under, zero, ite_self]

/-- The solution in which all symbols without a row are zero. -/
theorem Parted.solves_complete_zero (parted : now.Parted inside) (present : ¬ inside 0) :
    Solves (now.tableau.complete Assignment.zero) now.tableau := by
  intro row member
  have named : row.1.id ≠ 0 := fun absent => present (absent ▸ parted.basic row member)
  have unchanged : row.2.eval (now.tableau.complete Assignment.zero) =
      row.2.eval Assignment.zero :=
    LinearForm.eval_congr (parted.rows row member).free fun _ free =>
      under_complete_of_free free.2 Assignment.zero
  rw [unchanged, Symbol.under_of_ne_zero named, complete_of_form? (form?_of_mem member)]

/-- Where the same symbols have rows, the goal has the same constant. -/
theorem Lowers.constant_eq_of_basis_eq (lowers : Lowers inside start now)
    (lowers' : Lowers inside start other) (present : ¬ inside 0)
    (same : now.tableau.basis = other.tableau.basis) :
    now.goal.constant = other.goal.constant := by
  let solution := now.tableau.complete Assignment.zero
  have vanishes : ∀ id ∉ now.tableau.basis, solution id = 0 := by
    intro id outside
    exact complete_of_free ((now.tableau.not_mem_basis_iff ⟨id, .external⟩).mp outside)
      Assignment.zero
  have solves := (lowers.solves_iff solution).mp (lowers.parted.solves_complete_zero present)
  calc now.goal.constant
      = now.goal.eval solution := (lowers.parted.eval_goal vanishes).symm
    _ = start.goal.eval solution := lowers.eval_goal solution solves
    _ = other.goal.eval solution := (lowers'.eval_goal solution solves).symm
    _ = other.goal.constant := lowers'.parted.eval_goal (same ▸ vanishes)

/-- The numbers of the symbols that the rows and the goal are written in. -/
def numbers (now : Descent Rat) : Finset Nat :=
  (now.tableau.equations.map (fun row => row.1.id) ++
    (now.goal :: now.tableau.equations.map Prod.snd).flatMap fun form =>
      form.terms.map fun term => term.1.id).toFinset

theorem mem_numbers_iff (id : Nat) : id ∈ now.numbers ↔
    (∃ row ∈ now.tableau.equations, row.1.id = id) ∨
      (∃ term ∈ now.goal.terms, term.1.id = id) ∨
        ∃ row ∈ now.tableau.equations, ∃ term ∈ row.2.terms, term.1.id = id := by
  simp only [numbers, List.mem_toFinset, List.mem_append, List.flatMap_cons, List.mem_flatMap,
    List.mem_map]
  constructor
  · rintro (basic | in_goal | ⟨_, ⟨row, member, rfl⟩, in_row⟩)
    · exact Or.inl basic
    · exact Or.inr (Or.inl in_goal)
    · exact Or.inr (Or.inr ⟨row, member, in_row⟩)
  · rintro (basic | in_goal | ⟨row, member, in_row⟩)
    · exact Or.inl basic
    · exact Or.inr (Or.inl in_goal)
    · exact Or.inr (Or.inr ⟨row.2, ⟨row, member, rfl⟩, in_row⟩)

/-- The symbols of a parted descent lie among themselves. -/
theorem Parted.within_numbers (parted : now.Parted inside) :
    now.Parted fun id => inside id ∧ id ∈ now.numbers := by
  constructor
  · exact fun row member =>
      ⟨parted.basic row member, (mem_numbers_iff _).mpr (Or.inl ⟨row, member, rfl⟩)⟩
  · intro row member
    have apart := parted.rows row member
    exact ⟨fun term occurs => ⟨⟨(apart.free term occurs).1, (mem_numbers_iff _).mpr
      (Or.inr (Or.inr ⟨row, member, term, occurs, rfl⟩))⟩, (apart.free term occurs).2⟩,
      apart.reduced⟩
  · have apart := parted.goal
    exact ⟨fun term occurs => ⟨⟨(apart.free term occurs).1, (mem_numbers_iff _).mpr
      (Or.inr (Or.inl ⟨term, occurs, rfl⟩))⟩, (apart.free term occurs).2⟩, apart.reduced⟩

/-- The constant of the goal never rises along a run. -/
theorem Lowers.antitone_constant (lowers : Lowers inside start start) :
    Antitone fun steps => (SoftSimplex.iterate Descent.step steps start).state.goal.constant := by
  refine antitone_nat_of_succ_le fun steps => ?_
  have there := lowers.iterate steps
  cases outcome : (SoftSimplex.iterate Descent.step steps start).result? with
  | none =>
      exact (there.parted.constant_step there.feasible
        (step_state_of_pause steps start outcome)).1
  | some reached => rw [iterate_succ_state_of_result steps start outcome]

/-- No two pivots that gain start from the same basis. -/
theorem Lowers.injOn_basis (lowers : Lowers inside start start) (present : ¬ inside 0) :
    Set.InjOn (fun steps => (SoftSimplex.iterate Descent.step steps start).state.tableau.basis)
      {steps | (SoftSimplex.iterate Descent.step steps start).result? = none ∧
        (SoftSimplex.iterate Descent.step steps start).state.Gains} := by
  -- A pivot that gains leaves the constant below what it was before, for good.
  have later : ∀ {first second : Nat}, first < second →
      (SoftSimplex.iterate Descent.step first start).result? = none →
      (SoftSimplex.iterate Descent.step first start).state.Gains →
      (SoftSimplex.iterate Descent.step first start).state.tableau.basis ≠
        (SoftSimplex.iterate Descent.step second start).state.tableau.basis := by
    intro first second before paused gains same
    have there := lowers.iterate first
    have falls := (there.parted.constant_step there.feasible
      (step_state_of_pause first start paused)).2 gains
    have stays := lowers.antitone_constant (Nat.succ_le_of_lt before)
    have equal := there.constant_eq_of_basis_eq (lowers.iterate second) present same
    exact absurd (lt_of_le_of_lt stays falls) (by rw [equal]; exact lt_irrefl _)
  intro first ⟨paused, gains⟩ second ⟨paused', gains'⟩ same
  rcases Nat.lt_trichotomy first second with before | equal | after
  · exact absurd same (later before paused gains)
  · exact equal
  · exact absurd same.symm (later after paused' gains')

/-- Only finitely many pivots of a run gain. -/
theorem Lowers.finite_gains (lowers : Lowers inside start start) (present : ¬ inside 0)
    {numbers : Finset Nat} (within : ∀ id, inside id → id ∈ numbers) :
    {steps | (SoftSimplex.iterate Descent.step steps start).result? = none ∧
      (SoftSimplex.iterate Descent.step steps start).state.Gains}.Finite := by
  refine Set.Finite.of_injOn (t := ↑numbers.powerset) ?_ (lowers.injOn_basis present)
    numbers.powerset.finite_toSet
  intro steps _
  rw [Finset.mem_coe, Finset.mem_powerset]
  intro id member
  obtain ⟨row, inside_row, rfl⟩ := List.mem_map.mp (List.mem_toFinset.mp member)
  exact within _ ((lowers.iterate steps).parted.basic row inside_row)

end Descent

/-- Over a parted and feasible tableau every pivot of the primal phase keeps both and does not
raise the goal's constant, and it lowers the constant if the row that leaves has a positive one. So
only finitely many pivots are of that kind, and a phase with no others ends. -/
theorem descend_progresses (tableau : Tableau Rat) (goal? : Option (LinearForm Rat))
    (parted : Descent.Parted (fun id => id ≠ 0) ⟨tableau, goal?⟩) (feasible : tableau.Feasible) :
    (∀ following, Descent.step ⟨tableau, goal?⟩ = .next following →
      following.Parted (fun id => id ≠ 0) ∧ following.tableau.Feasible ∧
        following.goal.constant ≤ (goal?.getD tableau.objective).constant ∧
          (Descent.Gains ⟨tableau, goal?⟩ →
            following.goal.constant < (goal?.getD tableau.objective).constant)) ∧
    {steps | (tableau.descend steps goal?).result? = none ∧
      (tableau.descend steps goal?).state.Gains}.Finite ∧
    ((∀ steps, (tableau.descend steps goal?).result? = none →
        (tableau.descend steps goal?).state.Gains) →
      ∃ steps reached, (tableau.descend steps goal?).result? = some reached) := by
  have finite : {steps | (tableau.descend steps goal?).result? = none ∧
      (tableau.descend steps goal?).state.Gains}.Finite :=
    (Descent.Lowers.refl parted.within_numbers feasible).finite_gains
      (fun inside => inside.1 rfl) fun _ inside => inside.2
  refine ⟨fun following moves => ?_, finite, fun gains => ?_⟩
  · obtain ⟨lower, strict⟩ := parted.constant_step feasible moves
    exact ⟨parted.step moves, parted.feasible_step feasible moves, lower, strict⟩
  · by_contra endless
    have paused : ∀ steps, (tableau.descend steps goal?).result? = none := by
      intro steps
      cases outcome : (tableau.descend steps goal?).result? with
      | none => rfl
      | some reached => exact absurd ⟨steps, reached, outcome⟩ endless
    refine Set.infinite_univ (finite.subset fun steps _ => ?_)
    exact ⟨paused steps, gains steps (paused steps)⟩

/-- A slack symbol has a row in another one that the objective asks to grow, and so has an external
symbol. -/
def slackened : Tableau Rat where
  rows := (SlotTable.empty.insert ⟨2, .slack⟩
      ⟨(LinearForm.ofConstant 3).plus ⟨1, .slack⟩ (-1), false⟩).insert ⟨4, .external⟩
    ⟨((LinearForm.ofConstant (-2)).plus ⟨3, .external⟩ 1).plus ⟨1, .slack⟩ (-1), false⟩
  objective := (LinearForm.ofConstant 0).plus ⟨1, .slack⟩ (-1)
  agenda := Agenda.clear

/-- The first pivot of this phase gains, and only finitely many do. -/
theorem descend_progresses_slackened :
    Descent.Gains ⟨slackened, none⟩ ∧
      {steps | (slackened.descend steps none).result? = none ∧
        (slackened.descend steps none).state.Gains}.Finite := by
  have gains : Descent.Gains ⟨slackened, none⟩ :=
    ⟨⟨1, .slack⟩, ⟨2, .slack⟩, (LinearForm.ofConstant 3).plus ⟨1, .slack⟩ (-1), by decide +kernel,
      by decide +kernel, rfl, by decide +kernel⟩
  have feasible : ∀ row ∈ slackened.equations, row.1.isRestricted = true → 0 ≤ row.2.constant := by
    decide +kernel
  have basic : ∀ row ∈ slackened.equations, row.1.id ≠ 0 := by decide +kernel
  have rows : ∀ row ∈ slackened.equations, ∀ term ∈ row.2.terms,
      (term.1.id ≠ 0 ∧ slackened.isBasic term.1 = false) ∧ term.2 ≠ 0 := by decide +kernel
  have goal : ∀ term ∈ slackened.objective.terms,
      (term.1.id ≠ 0 ∧ slackened.isBasic term.1 = false) ∧ term.2 ≠ 0 := by decide +kernel
  have apart : ∀ form : LinearForm Rat, (∀ term ∈ form.terms,
      (term.1.id ≠ 0 ∧ slackened.isBasic term.1 = false) ∧ term.2 ≠ 0) →
        slackened.Apart (fun id => id ≠ 0) form := fun form holds =>
    ⟨fun term member => (holds term member).1.imp_right (slackened.isBasic_eq_false_iff _).mp,
      fun term member => (holds term member).2⟩
  exact ⟨gains, (descend_progresses slackened none
    ⟨basic, fun row member => apart _ (rows row member), apart _ goal⟩ feasible).2.1⟩

end SoftSimplex.Tableau
