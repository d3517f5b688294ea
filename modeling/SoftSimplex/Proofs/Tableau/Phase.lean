import SoftSimplex.Proofs.Tableau.Agenda
import SoftSimplex.Tableau.Phase

/-!
# What the phases keep

Every pivot of the primal and of the dual phase exchanges a basic symbol for one in its row. So
however a phase ends, the tableau has the solutions it had, and on them the objective and the goal
have the values they had. The primal phase moves restricted symbols only, so the dummies that
have rows stay the same.
-/

namespace SoftSimplex.Tableau

variable {kinds : Nat → Symbol.Kind} {tableau other : Tableau Rat}

/-- A regular tableau with the solutions of another and the same objective on them. -/
structure Equivalent (kinds : Nat → Symbol.Kind) (tableau other : Tableau Rat) : Prop where
  regular : other.Regular kinds
  solves_iff : ∀ assignment, Solves assignment other ↔ Solves assignment tableau
  eval_objective : ∀ assignment, Solves assignment tableau →
    other.objective.eval assignment = tableau.objective.eval assignment

namespace Equivalent

theorem refl (regular : tableau.Regular kinds) : tableau.Equivalent kinds tableau :=
  ⟨regular, fun _ => Iff.rfl, fun _ _ => rfl⟩

theorem trans {third : Tableau Rat} (equivalent : tableau.Equivalent kinds other)
    (equivalent' : other.Equivalent kinds third) : tableau.Equivalent kinds third where
  regular := equivalent'.regular
  solves_iff assignment :=
    (equivalent'.solves_iff assignment).trans (equivalent.solves_iff assignment)
  eval_objective assignment solves :=
    (equivalent'.eval_objective assignment ((equivalent.solves_iff assignment).mpr solves)).trans
      (equivalent.eval_objective assignment solves)

theorem means {ledger : Ledger} (equivalent : tableau.Equivalent kinds other)
    (means : tableau.Means ledger) : other.Means ledger :=
  fun assignment => (equivalent.solves_iff assignment).trans (means assignment)

theorem prices {ledger : Ledger} (equivalent : tableau.Equivalent kinds other)
    (prices : tableau.Prices ledger) : other.Prices ledger := by
  obtain ⟨drift, priced⟩ := prices
  refine ⟨drift, fun assignment solves => ?_⟩
  have before := (equivalent.solves_iff assignment).mp solves
  rw [equivalent.eval_objective assignment before, priced assignment before]

theorem indifferent (equivalent : tableau.Equivalent kinds other) {id : Nat}
    (indifferent : tableau.Indifferent id) : other.Indifferent id := by
  intro assignment number solves
  rw [equivalent.solves_iff] at solves ⊢
  exact indifferent assignment number solves

end Equivalent

theorem Alike.equivalent (alike : tableau.Alike other) (regular : tableau.Regular kinds) :
    tableau.Equivalent kinds other :=
  ⟨alike.regular regular, alike.solves_iff, fun _ _ => by rw [alike.objective]⟩

/-- Exchanging a basic symbol for one in its row gives an equivalent tableau. -/
theorem Exchange.equivalent {form : LinearForm Rat} {entering leaving : Symbol}
    (exchange : (tableau.discard leaving).Exchange kinds form entering leaving)
    (found : tableau.form? leaving = some form)
    (confined : entering.isExternal = true ∨ Internal form leaving) :
    tableau.Equivalent kinds ((tableau.discard leaving).pivot form entering leaving) where
  regular := exchange.regular_pivot confined
  solves_iff := exchange.solves_pivot_discard_iff found
  eval_objective assignment solves := by
    rw [objective_pivot, objective_discard,
      exchange.eval_substitute_of_equation (solves.under_eq found)]

/-- Which symbols have no row after an exchange. -/
theorem form?_pivot_discard_eq_none_iff {α : Type} [Scalar α] {tableau : Tableau α}
    (form : LinearForm α) (entering leaving symbol : Symbol) :
    ((tableau.discard leaving).pivot form entering leaving).form? symbol = none ↔
      symbol.id ≠ entering.id ∧ (symbol.id = leaving.id ∨ tableau.form? symbol = none) := by
  rw [form?_pivot]
  split
  · rename_i same
    simp [same]
  · rename_i apart
    rw [Option.map_eq_none_iff, form?_discard]
    split
    · rename_i same
      exact iff_of_true rfl ⟨apart, Or.inl same⟩
    · rename_i elsewhere
      exact ⟨fun free => ⟨apart, Or.inr free⟩,
        fun both => both.2.resolve_left elsewhere⟩

section Exchange

variable {α : Type} [Scalar α] {tableau : Tableau α} {form other : LinearForm α}
  {entering leaving : Symbol} {allowed : Symbol → Prop}
  (spanned : form.Over fun symbol => allowed symbol ∧ tableau.form? symbol = none)
  (found : tableau.form? leaving = some form) (belongs : allowed leaving)
  (free : tableau.form? entering = none)

include spanned found belongs free

/-- The solved form is written in the symbols that have no row after the exchange. -/
theorem over_isolate_exchange :
    (form.isolate entering leaving).Over fun symbol => allowed symbol ∧
      ((tableau.discard leaving).pivot form entering leaving).form? symbol = none := by
  refine LinearForm.Over.isolate (fun term member elsewhere => ?_) fun _ => ⟨belongs, ?_⟩
  · obtain ⟨term_allowed, term_free⟩ := spanned term member
    exact ⟨term_allowed,
      (form?_pivot_discard_eq_none_iff form entering leaving _).mpr ⟨elsewhere, Or.inr term_free⟩⟩
  · refine (form?_pivot_discard_eq_none_iff form entering leaving _).mpr
      ⟨fun same => ?_, Or.inl rfl⟩
    rw [tableau.form?_congr same, free] at found
    exact Option.some_ne_none form found.symm

/-- So is every form that was written in free symbols, once the entering one is replaced in it. -/
theorem over_substitute_exchange
    (other_spanned : other.Over fun symbol => allowed symbol ∧ tableau.form? symbol = none) :
    (other.substitute entering (form.isolate entering leaving)).Over fun symbol =>
      allowed symbol ∧
        ((tableau.discard leaving).pivot form entering leaving).form? symbol = none := by
  refine LinearForm.Over.substitute (fun term member elsewhere => ?_)
    (over_isolate_exchange spanned found belongs free)
  obtain ⟨term_allowed, term_free⟩ := other_spanned term member
  exact ⟨term_allowed,
    (form?_pivot_discard_eq_none_iff form entering leaving _).mpr ⟨elsewhere, Or.inr term_free⟩⟩

end Exchange

/-! ## Lowering a goal -/

namespace Descent

variable {start now following : Descent Rat}

/-- What a pivot of the primal phase is. -/
theorem of_step_eq_next {α : Type} [Scalar α] {now following : Descent α}
    (moves : now.step = .next following) :
    ∃ entering leaving form, now.goal.entering? = some entering ∧
      now.tableau.leaving? entering = some leaving ∧
        now.tableau.form? leaving = some form ∧
          following = ⟨(now.tableau.discard leaving).pivot form entering leaving,
            now.goal?.map fun goal =>
              goal.substitute entering (form.isolate entering leaving)⟩ := by
  unfold step at moves
  split at moves
  · exact absurd moves (by simp)
  · rename_i entering chosen
    split at moves
    · exact absurd moves (by simp)
    · rename_i leaving left
      split at moves
      · exact absurd moves (by simp)
      · rename_i form rest taken
        obtain ⟨found, rfl⟩ := (take?_eq_some_iff _ _ _ _).mp taken
        exact ⟨entering, leaving, form, chosen, left, found, (Step.next.inj moves).symm⟩

theorem goal_substitute (descent : Descent Rat) (symbol : Symbol) (definition : LinearForm Rat)
    (tableau : Tableau Rat)
    (objective : tableau.objective = descent.tableau.objective.substitute symbol definition) :
    (⟨tableau, descent.goal?.map fun goal => goal.substitute symbol definition⟩ :
      Descent Rat).goal = descent.goal.substitute symbol definition := by
  unfold goal
  cases descent.goal? with
  | none => exact objective
  | some goal => rfl

/-- The state of the phase is equivalent to where it started, the goal has kept its values, and
the same dummies have rows. -/
structure Sound (kinds : Nat → Symbol.Kind) (start now : Descent Rat) : Prop where
  equivalent : start.tableau.Equivalent kinds now.tableau
  tidy : now.tableau.Tidy kinds
  dummies : ∀ symbol : Symbol, symbol.Proper kinds → symbol.isDummy = true →
    (now.tableau.form? symbol = none ↔ start.tableau.form? symbol = none)
  goal_isSome : now.goal?.isSome = start.goal?.isSome
  settled : now.tableau.Settled kinds now.goal
  confined : now.goal.Over fun symbol => symbol.isExternal = false
  eval_goal : ∀ assignment, Solves assignment start.tableau →
    now.goal.eval assignment = start.goal.eval assignment

theorem Sound.refl (regular : start.tableau.Regular kinds) (tidy : start.tableau.Tidy kinds)
    (settled : start.tableau.Settled kinds start.goal)
    (confined : start.goal.Over fun symbol => symbol.isExternal = false) :
    Sound kinds start start :=
  ⟨.refl regular, tidy, fun _ _ _ => Iff.rfl, rfl, settled, confined, fun _ _ => rfl⟩

/-- The exchange that a pivot of the primal phase makes. -/
theorem Sound.exchange (sound : Sound kinds start now) {entering leaving : Symbol}
    {form : LinearForm Rat} (chosen : now.goal.entering? = some entering)
    (left : now.tableau.leaving? entering = some leaving)
    (found : now.tableau.form? leaving = some form) :
    (now.tableau.discard leaving).Exchange kinds form entering leaving ∧
      Internal form leaving ∧ entering.isDummy = false ∧ leaving.isRestricted = true := by
  have regular := sound.equivalent.regular
  obtain ⟨amount, in_goal, not_dummy, _⟩ := LinearForm.of_entering?_eq_some chosen
  obtain ⟨form', coefficient, member, restricted, mentioned, _⟩ := of_leaving?_eq_some left
  obtain rfl : form' = form := form_eq_of_form? member found
  have internal : leaving.isExternal = false := by
    rw [Symbol.isRestricted_eq_true_iff] at restricted
    rcases restricted.2 with kind | kind <;> simp [Symbol.isExternal, Symbol.isOf, kind]
  have mentions : form'.mentions entering = true := by
    rw [LinearForm.mentions_eq_isSome, mentioned]
    rfl
  exact ⟨regular.exchange (regular.proper _ member) found
      (sound.settled.proper _ in_goal) mentions,
    ⟨regular.confined _ member internal, internal⟩, not_dummy, restricted⟩

theorem Sound.proper_leaving (sound : Sound kinds start now) {entering leaving : Symbol}
    (left : now.tableau.leaving? entering = some leaving) : leaving.Proper kinds := by
  obtain ⟨form, coefficient, member, _⟩ := of_leaving?_eq_some left
  exact sound.equivalent.regular.proper _ member

/-- A pivot of the primal phase keeps all this. -/
theorem Sound.step (sound : Sound kinds start now) (moves : now.step = .next following) :
    Sound kinds start following := by
  obtain ⟨entering, leaving, form, chosen, left, found, rfl⟩ := of_step_eq_next moves
  obtain ⟨exchange, internal, not_dummy, restricted⟩ := sound.exchange chosen left found
  have regular := sound.equivalent.regular
  have leaving_proper := sound.proper_leaving left
  have pivoted := exchange.equivalent found (Or.inr internal)
  have goal_eq := goal_substitute now entering (form.isolate entering leaving)
    ((now.tableau.discard leaving).pivot form entering leaving)
    (by rw [objective_pivot, objective_discard])
  have settled_rest := sound.settled.discard leaving
  refine ⟨sound.equivalent.trans pivoted, ?_, ?_, ?_, ?_, ?_, ?_⟩
  · exact (sound.tidy.discard leaving).pivot (regular.discard leaving) form entering leaving
  -- A dummy neither enters nor leaves in this phase.
  · intro symbol proper is_dummy
    rw [form?_pivot_discard_eq_none_iff, ← sound.dummies symbol proper is_dummy]
    have not_entering : symbol.id ≠ entering.id := by
      intro same
      rw [proper.eq_of_id_eq exchange.proper same, not_dummy] at is_dummy
      exact Bool.noConfusion is_dummy
    have not_leaving : symbol.id ≠ leaving.id := by
      intro same
      rw [proper.eq_of_id_eq leaving_proper same] at is_dummy
      rw [Symbol.isRestricted_eq_true_iff] at restricted
      rw [Symbol.isDummy, Symbol.isOf_eq_true_iff] at is_dummy
      rcases restricted.2 with kind | kind <;> rw [is_dummy.2] at kind <;>
        exact Symbol.Kind.noConfusion kind
    exact ⟨fun both => both.2.resolve_left not_leaving, fun free => ⟨not_entering, Or.inr free⟩⟩
  · rw [← sound.goal_isSome, Option.isSome_map]
  · rw [goal_eq]
    refine ⟨(exchange.settled_substitute settled_rest).mono fun symbol both =>
      ⟨both.1.1, ?_⟩, settled_rest.reduced.substitute _ _⟩
    rw [form?_pivot, if_neg both.2, both.1.2, Option.map_none]
  · rw [goal_eq]
    exact exchange.confined_substitute sound.confined (Or.inl internal)
  · intro assignment solves
    have here := (sound.equivalent.solves_iff assignment).mpr solves
    rw [goal_eq, exchange.eval_substitute_of_equation (here.under_eq found)]
    exact sound.eval_goal assignment solves

end Descent

/-- However the primal phase ends, it keeps all this. -/
theorem descend_sound (regular : tableau.Regular kinds) (tidy : tableau.Tidy kinds)
    {goal? : Option (LinearForm Rat)}
    (settled : tableau.Settled kinds (goal?.getD tableau.objective))
    (confined : (goal?.getD tableau.objective).Over fun symbol => symbol.isExternal = false)
    (steps : Nat) :
    Descent.Sound kinds ⟨tableau, goal?⟩ (tableau.descend steps goal?).state :=
  iterate_invariant (fun _ _ sound moves => Descent.Sound.step sound moves) steps _
    (Descent.Sound.refl regular tidy settled confined)

/-- Lowering the objective. -/
theorem descend_objective_sound (regular : tableau.Regular kinds) (tidy : tableau.Tidy kinds)
    (steps : Nat) :
    Descent.Sound kinds ⟨tableau, none⟩ (tableau.descend steps none).state := by
  refine descend_sound regular tidy ?_ ?_ steps
  · exact regular.objective_settled
  · exact regular.objective_confined

/-! ## Repairing rows -/

/-- The queue has moved on. -/
def dequeued {α : Type} (tableau : Tableau α) (waiting : List Symbol) : Tableau α :=
  { tableau with agenda := { tableau.agenda with repairs := waiting } }

/-- The queue has moved on, and the row that was first is no longer flagged. -/
def calmed {α : Type} (tableau : Tableau α) (symbol : Symbol) (waiting : List Symbol) :
    Tableau α :=
  { tableau.dequeued waiting with
    rows := tableau.rows.modify symbol fun row => { row with isQueued := false } }

/-- How a step of the dual phase serves the first row of the queue under any arithmetic: the row is
gone, or is not low, or is lifted by a pivot, or is put back. -/
inductive Serves {α : Type} [Scalar α] (tableau other : Tableau α) : Prop where
  | gone (leaving : Symbol) (waiting : List Symbol)
      (queue : tableau.agenda.repairs = leaving :: waiting)
      (absent : tableau.form? leaving = none) (result : other = tableau.dequeued waiting)
  | calm (leaving : Symbol) (waiting : List Symbol) (form : LinearForm α)
      (queue : tableau.agenda.repairs = leaving :: waiting)
      (found : tableau.form? leaving = some form)
      (high : (decide (0 ≤ form.constant) || Scalar.negligible form.constant) = true)
      (result : other = tableau.calmed leaving waiting)
  | lifted (leaving : Symbol) (waiting : List Symbol) (form : LinearForm α)
      (queue : tableau.agenda.repairs = leaving :: waiting)
      (found : tableau.form? leaving = some form)
      (low : (decide (0 ≤ form.constant) || Scalar.negligible form.constant) = false)
      (entering : Symbol)
      (chosen : ((tableau.calmed leaving waiting).discard leaving).lifting? form = some entering)
      (result : other =
        ((tableau.calmed leaving waiting).discard leaving).pivot form entering leaving)
  | stuck (leaving : Symbol) (waiting : List Symbol) (form : LinearForm α)
      (queue : tableau.agenda.repairs = leaving :: waiting)
      (found : tableau.form? leaving = some form)
      (low : (decide (0 ≤ form.constant) || Scalar.negligible form.constant) = false)
      (missing : ((tableau.calmed leaving waiting).discard leaving).lifting? form = none)
      (result : other =
        ((tableau.calmed leaving waiting).discard leaving).put leaving form)

theorem serves_of_repairStep {α : Type} [Scalar α] {tableau other : Tableau α}
    (moves : tableau.repairStep = .next other) : tableau.Serves other := by
  unfold repairStep at moves
  split at moves
  · exact absurd moves (by simp)
  · rename_i leaving waiting queue
    dsimp only at moves
    split at moves
    · rename_i absent
      exact .gone leaving waiting queue absent (Step.next.inj moves).symm
    · rename_i form found
      split at moves
      · rename_i high
        exact .calm leaving waiting form queue found high (Step.next.inj moves).symm
      · rename_i low
        rw [Bool.not_eq_true] at low
        split at moves
        · rename_i entering chosen
          exact .lifted leaving waiting form queue found low entering chosen
            (Step.next.inj moves).symm
        · rename_i missing
          exact .stuck leaving waiting form queue found low missing (Step.next.inj moves).symm

/-- What a step of the dual phase is: the first row is gone, or needs nothing, or is lifted by a
pivot, or is put back. -/
inductive Repairing (tableau other : Tableau Rat) : Prop where
  | gone (leaving : Symbol) (waiting : List Symbol)
      (queue : tableau.agenda.repairs = leaving :: waiting)
      (absent : tableau.form? leaving = none) (result : other = tableau.dequeued waiting)
  | calm (leaving : Symbol) (waiting : List Symbol) (form : LinearForm Rat)
      (queue : tableau.agenda.repairs = leaving :: waiting)
      (found : tableau.form? leaving = some form) (fine : 0 ≤ form.constant)
      (result : other = tableau.calmed leaving waiting)
  | lifted (leaving : Symbol) (waiting : List Symbol) (form : LinearForm Rat)
      (queue : tableau.agenda.repairs = leaving :: waiting)
      (found : tableau.form? leaving = some form) (negative : form.constant < 0)
      (entering : Symbol)
      (chosen : ((tableau.calmed leaving waiting).discard leaving).lifting? form = some entering)
      (result : other =
        ((tableau.calmed leaving waiting).discard leaving).pivot form entering leaving)
  | stuck (leaving : Symbol) (waiting : List Symbol) (form : LinearForm Rat)
      (queue : tableau.agenda.repairs = leaving :: waiting)
      (found : tableau.form? leaving = some form) (negative : form.constant < 0)
      (missing : ((tableau.calmed leaving waiting).discard leaving).lifting? form = none)
      (result : other =
        ((tableau.calmed leaving waiting).discard leaving).put leaving form)

theorem of_repairStep_eq_next (moves : tableau.repairStep = .next other) :
    tableau.Repairing other := by
  have negative : ∀ form : LinearForm Rat,
      (decide (0 ≤ form.constant) || Scalar.negligible form.constant) = false →
        form.constant < 0 := by
    intro form low
    rw [Bool.or_eq_false_iff, decide_eq_false_iff_not] at low
    exact not_le.mp low.1
  cases serves_of_repairStep moves with
  | gone leaving waiting queue absent result => exact .gone leaving waiting queue absent result
  | calm leaving waiting form queue found high result =>
      refine .calm leaving waiting form queue found ?_ result
      rw [Bool.or_eq_true, decide_eq_true_eq] at high
      rcases high with nonnegative | negligible
      · exact nonnegative
      · exact (of_decide_eq_true negligible : form.constant = 0).ge
  | lifted leaving waiting form queue found low entering chosen result =>
      exact .lifted leaving waiting form queue found (negative form low) entering chosen result
  | stuck leaving waiting form queue found low missing result =>
      exact .stuck leaving waiting form queue found (negative form low) missing result

theorem repairs_eq_nil_of_halt {α : Type} [Scalar α] {tableau : Tableau α}
    (halts : tableau.repairStep = .halt ()) :
    tableau.agenda.repairs = [] := by
  unfold repairStep at halts
  split at halts
  · assumption
  · dsimp only at halts
    split at halts
    · exact absurd halts (by simp)
    · split at halts
      · exact absurd halts (by simp)
      · split at halts <;> exact absurd halts (by simp)

theorem alike_calmed {α : Type} (tableau : Tableau α) (symbol : Symbol) (waiting : List Symbol) :
    tableau.Alike (tableau.calmed symbol waiting) := by
  refine ⟨?_, rfl⟩
  unfold equations calmed
  rw [SlotTable.entries_modify, List.map_map]
  refine List.map_congr_left fun entry _ => ?_
  simp only [Function.comp_apply]
  split <;> rfl

/-- The row that waits first can be passed over if it is gone. -/
theorem Flagged.dequeued {α : Type} {tableau : Tableau α} (flagged : tableau.Flagged)
    {leaving : Symbol} {waiting : List Symbol}
    (queue : tableau.agenda.repairs = leaving :: waiting)
    (absent : tableau.form? leaving = none) : (tableau.dequeued waiting).Flagged := by
  intro entry member queued
  obtain ⟨symbol, waits, named⟩ := flagged entry member queued
  rw [queue] at waits
  rcases List.mem_cons.mp waits with rfl | later
  · have apart := (tableau.form?_eq_none_iff symbol).mp absent (entry.1, entry.2.form)
      (List.mem_map_of_mem member)
    exact absurd named.symm apart
  · exact ⟨symbol, later, named⟩

theorem Tidy.dequeued (tidy : tableau.Tidy kinds) {leaving : Symbol} {waiting : List Symbol}
    (queue : tableau.agenda.repairs = leaving :: waiting)
    (absent : tableau.form? leaving = none) : (tableau.dequeued waiting).Tidy kinds :=
  ⟨fun symbol member => tidy.queue symbol (queue ▸ List.mem_cons_of_mem _ member),
    Flagged.dequeued tidy.flagged queue absent⟩

theorem entries_calmed {α : Type} {tableau : Tableau α} {leaving : Symbol}
    {waiting : List Symbol} {entry : Symbol × Row α}
    (member : entry ∈ (tableau.calmed leaving waiting).rows.entries) :
    (entry ∈ tableau.rows.entries ∧ entry.1.id ≠ leaving.id) ∨
      (entry.1.id = leaving.id ∧ entry.2.isQueued = false ∧
        ∃ before ∈ tableau.rows.entries, before.1 = entry.1 ∧
          before.2.form = entry.2.form) := by
  unfold calmed at member
  rw [SlotTable.entries_modify] at member
  obtain ⟨before, inside, rfl⟩ := List.mem_map.mp member
  by_cases same : before.1.id = leaving.id
  · rw [if_pos same]
    exact Or.inr ⟨same, rfl, before, inside, rfl, rfl⟩
  · rw [if_neg same]
    exact Or.inl ⟨inside, same⟩

/-- The row that waits first can be passed over if its flag is taken away. -/
theorem Flagged.calmed {α : Type} {tableau : Tableau α} (flagged : tableau.Flagged)
    {leaving : Symbol} {waiting : List Symbol}
    (queue : tableau.agenda.repairs = leaving :: waiting) :
    (tableau.calmed leaving waiting).Flagged := by
  intro entry member queued
  rcases entries_calmed member with ⟨inside, apart⟩ | ⟨_, unflagged, _⟩
  · obtain ⟨symbol, waits, named⟩ := flagged entry inside queued
    rw [queue] at waits
    rcases List.mem_cons.mp waits with rfl | later
    · exact absurd named.symm apart
    · exact ⟨symbol, later, named⟩
  · rw [unflagged] at queued
    exact Bool.noConfusion queued

theorem Tidy.calmed (tidy : tableau.Tidy kinds) {leaving : Symbol} {waiting : List Symbol}
    (queue : tableau.agenda.repairs = leaving :: waiting) :
    (tableau.calmed leaving waiting).Tidy kinds :=
  ⟨fun symbol member => tidy.queue symbol (queue ▸ List.mem_cons_of_mem _ member),
    Flagged.calmed tidy.flagged queue⟩

/-- A row that has been put back is one of the rows of before. -/
theorem Regular.mem_of_mem_put_discard (regular : tableau.Regular kinds) {symbol : Symbol}
    {form : LinearForm Rat} (proper : symbol.Proper kinds)
    (found : tableau.form? symbol = some form) {row : Symbol × LinearForm Rat}
    (member : row ∈ ((tableau.discard symbol).put symbol form).equations) :
    row ∈ tableau.equations := by
  rcases mem_equations_put member with ⟨inside, _⟩ | ⟨same, is_form, origin⟩
  · exact ((tableau.mem_equations_discard_iff symbol row).mp inside).1
  · rcases origin with is_symbol | ⟨earlier, before⟩
    · have equal : row = (symbol, form) := Prod.ext is_symbol is_form
      rw [equal]
      exact regular.mem_equations proper found
    · exact absurd same ((tableau.mem_equations_discard_iff symbol _).mp before).2

/-- Putting a row back changes nothing but its place. -/
theorem Regular.equivalent_put_discard (regular : tableau.Regular kinds) {symbol : Symbol}
    {form : LinearForm Rat} (proper : symbol.Proper kinds)
    (found : tableau.form? symbol = some form) :
    tableau.Equivalent kinds ((tableau.discard symbol).put symbol form) := by
  have back : ∀ row ∈ ((tableau.discard symbol).put symbol form).equations,
      row ∈ tableau.equations :=
    fun row member => regular.mem_of_mem_put_discard proper found member
  have lookup : ∀ other, ((tableau.discard symbol).put symbol form).form? other =
      tableau.form? other := by
    intro other
    rw [form?_put, form?_discard]
    split
    · rename_i same
      rw [← found, tableau.form?_congr same]
    · rfl
  have settle : ∀ other, tableau.Settled kinds other →
      ((tableau.discard symbol).put symbol form).Settled kinds other := by
    intro other settled
    refine ⟨settled.free.mono fun term free => ⟨free.1, ?_⟩, settled.reduced⟩
    rw [lookup]
    exact free.2
  refine ⟨⟨?_, ?_, ?_, ?_, ?_⟩, fun assignment => ⟨fun solves row member => ?_,
    fun solves row member => solves row (back row member)⟩, fun _ _ => ?_⟩
  · exact fun row member => regular.proper row (back row member)
  · exact fun row member => settle _ (regular.settled row (back row member))
  · exact fun row member => regular.confined row (back row member)
  · rw [objective_put, objective_discard]
    exact settle _ regular.objective_settled
  · rw [objective_put, objective_discard]
    exact regular.objective_confined
  · exact solves.under_eq ((lookup row.1).trans (form?_of_mem member))
  · rw [objective_put, objective_discard]

/-- The exchange that lifts a row. -/
theorem Regular.exchange_lifted (regular : tableau.Regular kinds) {leaving entering : Symbol}
    {form : LinearForm Rat} (proper : leaving.Proper kinds)
    (found : tableau.form? leaving = some form)
    (chosen : (tableau.discard leaving).lifting? form = some entering) :
    (tableau.discard leaving).Exchange kinds form entering leaving := by
  obtain ⟨coefficient, member, _⟩ := of_lifting?_eq_some chosen
  refine regular.exchange proper found ?_ (LinearForm.mentions_of_mem member)
  exact (regular.settled_of_form? found).proper _ member

/-- A step of the dual phase gives an equivalent tableau. -/
theorem Repairing.equivalent (repairing : tableau.Repairing other)
    (regular : tableau.Regular kinds) (tidy : tableau.Tidy kinds) :
    tableau.Equivalent kinds other ∧ other.Tidy kinds := by
  cases repairing with
  | gone leaving waiting queue absent result =>
      rw [result]
      exact ⟨Alike.equivalent ⟨rfl, rfl⟩ regular, tidy.dequeued queue absent⟩
  | calm leaving waiting form queue found fine result =>
      rw [result]
      exact ⟨(tableau.alike_calmed leaving waiting).equivalent regular, tidy.calmed queue⟩
  | lifted leaving waiting form queue found negative entering chosen result =>
      rw [result]
      obtain ⟨proper, internal⟩ := tidy.queue leaving (queue ▸ List.mem_cons_self)
      have alike := tableau.alike_calmed leaving waiting
      have regular_calmed := alike.regular regular
      have found_calmed := (alike.form? leaving).trans found
      have exchange := regular_calmed.exchange_lifted proper found_calmed chosen
      have confined := regular_calmed.confined _
        (regular_calmed.mem_equations proper found_calmed) internal
      refine ⟨(alike.equivalent regular).trans
        (exchange.equivalent found_calmed (Or.inr ⟨confined, internal⟩)), ?_⟩
      exact ((tidy.calmed queue).discard leaving).pivot (regular_calmed.discard leaving) _ _ _
  | stuck leaving waiting form queue found negative missing result =>
      rw [result]
      obtain ⟨proper, _⟩ := tidy.queue leaving (queue ▸ List.mem_cons_self)
      have alike := tableau.alike_calmed leaving waiting
      refine ⟨(alike.equivalent regular).trans
        ((alike.regular regular).equivalent_put_discard proper
          ((alike.form? leaving).trans found)), ?_⟩
      exact ((tidy.calmed queue).discard leaving).put leaving form

/-- However the dual phase ends, the tableau is equivalent to the one it started from, and if the
phase ends by itself, no row waits. -/
theorem repair_sound (regular : tableau.Regular kinds) (tidy : tableau.Tidy kinds)
    (steps : Nat) :
    tableau.Equivalent kinds (tableau.repair steps).state ∧
      (tableau.repair steps).state.Tidy kinds ∧
        ((tableau.repair steps).result? = some () →
          (tableau.repair steps).state.agenda.repairs = []) := by
  have keeps : ∀ state following : Tableau Rat,
      tableau.Equivalent kinds state ∧ state.Tidy kinds →
        state.repairStep = .next following →
          tableau.Equivalent kinds following ∧ following.Tidy kinds := by
    intro state following holds moves
    obtain ⟨equivalent, tidy_there⟩ :=
      (of_repairStep_eq_next moves).equivalent holds.1.regular holds.2
    exact ⟨holds.1.trans equivalent, tidy_there⟩
  have kept := iterate_invariant keeps steps tableau ⟨.refl regular, tidy⟩
  exact ⟨kept.1, kept.2, fun finished =>
    repairs_eq_nil_of_halt (step_state_of_result steps tableau () finished)⟩

end SoftSimplex.Tableau
