import SoftSimplex.Proofs.Tableau.Upkeep

/-!
# What a change of a tableau tells

A change tells of itself if every external symbol whose solved value it moves is touched, and if
it touches no symbol of a given class. Symbols on which the solutions do not depend have no rows,
so pivots do not touch them.
-/

namespace SoftSimplex.Tableau

section AnyArithmetic

variable {α : Type} [Scalar α] {kinds : Nat → Symbol.Kind} {ignored : Nat → Prop}
  {tableau other third : Tableau α}

/-- The change from one tableau to another touches whatever external value it moves, and nothing
that is ignored. -/
structure Tells (kinds : Nat → Symbol.Kind) (ignored : Nat → Prop)
    (tableau other : Tableau α) : Prop where
  kept : ∀ symbol ∈ tableau.agenda.touched, symbol ∈ other.agenda.touched
  told : ∀ symbol : Symbol, symbol.id ≠ 0 → kinds symbol.id = .external →
    other.value symbol = tableau.value symbol ∨
      ∃ noted ∈ other.agenda.touched, noted.id = symbol.id
  origin : ∀ symbol ∈ other.agenda.touched,
    symbol ∈ tableau.agenda.touched ∨ ¬ ignored symbol.id

/-- No row is filed under an ignored number. -/
def Heeds {α : Type} (ignored : Nat → Prop) (tableau : Tableau α) : Prop :=
  ∀ row ∈ tableau.equations, ¬ ignored row.1.id

omit [Scalar α] in
theorem heeds_nobody (tableau : Tableau α) : tableau.Heeds fun _ => False :=
  fun _ _ => id

omit [Scalar α] in
theorem Heeds.of_form? (heeds : tableau.Heeds ignored) {symbol : Symbol}
    (basic : tableau.form? symbol ≠ none) : ¬ ignored symbol.id := by
  obtain ⟨form, found⟩ := Option.ne_none_iff_exists'.mp basic
  obtain ⟨row, member, same, _⟩ := (tableau.form?_eq_some_iff symbol form).mp found
  rw [← same]
  exact heeds row member

namespace Tells

theorem refl (tableau : Tableau α) : tableau.Tells kinds ignored tableau :=
  ⟨fun _ => id, fun _ _ _ => Or.inl rfl, fun _ => Or.inl⟩

theorem trans (tells : tableau.Tells kinds ignored other)
    (tells' : other.Tells kinds ignored third) : tableau.Tells kinds ignored third := by
  refine ⟨fun symbol member => tells'.kept symbol (tells.kept symbol member), ?_, ?_⟩
  · intro symbol proper external
    rcases tells'.told symbol proper external with same' | noted
    · rcases tells.told symbol proper external with same | ⟨noted, member, named⟩
      · exact Or.inl (same'.trans same)
      · exact Or.inr ⟨noted, tells'.kept noted member, named⟩
    · exact Or.inr noted
  · intro symbol member
    rcases tells'.origin symbol member with before | heeded
    · exact tells.origin symbol before
    · exact Or.inr heeded

/-- A change of the objective alone moves nothing. -/
theorem of_alike (alike : tableau.Alike other)
    (touched : other.agenda.touched = tableau.agenda.touched) :
    tableau.Tells kinds ignored other :=
  ⟨fun _ => by rw [touched]; exact id, fun symbol _ _ => Or.inl (alike.value symbol),
    fun _ => by rw [touched]; exact Or.inl⟩

end Tells

omit [Scalar α] in
theorem mem_touch {agenda : Agenda} {symbol noted : Symbol}
    (member : noted ∈ (agenda.touch symbol).touched) :
    noted ∈ agenda.touched ∨ noted = symbol := by
  unfold Agenda.touch at member
  split at member
  · exact (List.mem_cons.mp member).symm
  · exact Or.inl member

omit [Scalar α] in
theorem mem_touch_of_mem {agenda : Agenda} {noted : Symbol} (member : noted ∈ agenda.touched)
    (symbol : Symbol) : noted ∈ (agenda.touch symbol).touched := by
  unfold Agenda.touch
  split
  · exact List.mem_cons_of_mem _ member
  · exact member

omit [Scalar α] in
theorem mem_touch_self {symbol : Symbol} (proper : symbol.Proper kinds)
    (external : kinds symbol.id = .external) (agenda : Agenda) :
    symbol ∈ (agenda.touch symbol).touched := by
  have is_external : symbol.isExternal = true := (proper.isOf_iff .external).mpr external
  simp [Agenda.touch, is_external]

theorem tells_discard {symbol : Symbol} (proper : symbol.Proper kinds)
    (heeded : tableau.form? symbol ≠ none → ¬ ignored symbol.id) :
    tableau.Tells kinds ignored (tableau.discard symbol) := by
  cases found : tableau.rows.get? symbol with
  | none =>
      have same : tableau.discard symbol = tableau := by simp [discard, take?, found]
      rw [same]
      exact Tells.refl tableau
  | some row =>
      have agenda : (tableau.discard symbol).agenda = tableau.agenda.touch symbol := by
        simp [discard, take?, found]
      have basic : tableau.form? symbol ≠ none := by simp [form?, found]
      refine ⟨fun noted member => ?_, fun moved _ external => ?_, fun noted member => ?_⟩
      · rw [agenda]
        exact mem_touch_of_mem member symbol
      · by_cases same : moved.id = symbol.id
        · refine Or.inr ⟨symbol, ?_, same.symm⟩
          rw [agenda]
          exact mem_touch_self proper (same ▸ external) _
        · refine Or.inl ?_
          rw [value, form?_discard, if_neg same]
          rfl
      · rw [agenda] at member
        rcases mem_touch member with before | rfl
        · exact Or.inl before
        · exact Or.inr (heeded basic)

theorem tells_put {symbol : Symbol} (proper : symbol.Proper kinds)
    (heeded : ¬ ignored symbol.id) (form : LinearForm α) :
    tableau.Tells kinds ignored (tableau.put symbol form) := by
  refine ⟨fun noted member => mem_touch_of_mem member symbol, fun moved _ external => ?_,
    fun noted member => ?_⟩
  · by_cases same : moved.id = symbol.id
    · exact Or.inr ⟨symbol, mem_touch_self proper (same ▸ external) _, same.symm⟩
    · refine Or.inl ?_
      rw [value, form?_put, if_neg same]
      rfl
  · rcases mem_touch member with before | rfl
    · exact Or.inl before
    · exact Or.inr heeded

theorem touched_passEntries {action : Agenda → Symbol → Row α → Row α × Agenda}
    (notes : Agenda.Notes action) (entries : List (Symbol × Row α)) (agenda : Agenda) :
    ∀ symbol ∈ (passEntries action entries agenda).2.touched,
      symbol ∈ agenda.touched ∨ ∃ entry ∈ entries, entry.1 = symbol := by
  induction entries generalizing agenda with
  | nil => exact fun _ => Or.inl
  | cons first rest inductionHypothesis =>
      obtain ⟨basic, row⟩ := first
      intro symbol member
      simp only [passEntries] at member
      rcases inductionHypothesis _ symbol member with before | ⟨entry, inside, named⟩
      · rcases notes agenda basic row with unchanged | ⟨form, noted⟩
        · rw [unchanged] at before
          exact Or.inl before
        · rw [noted, Agenda.touched_note] at before
          split at before
          · rcases List.mem_cons.mp before with rfl | earlier
            · exact Or.inr ⟨_, List.mem_cons_self, rfl⟩
            · exact Or.inl earlier
          · exact Or.inl before
      · exact Or.inr ⟨entry, List.mem_cons_of_mem _ inside, named⟩

/-- A pass that notes what it changes tells of it. -/
theorem tells_pass (proper : ∀ row ∈ tableau.equations, row.1.Proper kinds)
    (heeds : tableau.Heeds ignored)
    {action : Agenda → Symbol → Row α → Row α × Agenda} (notes : Agenda.Notes action)
    (change : LinearForm α → LinearForm α) (objective : LinearForm α)
    (equations : equations ⟨(tableau.rows.pass tableau.agenda action).1, objective,
      (tableau.rows.pass tableau.agenda action).2⟩ =
        tableau.equations.map fun row => (row.1, change row.2)) :
    tableau.Tells kinds ignored ⟨(tableau.rows.pass tableau.agenda action).1, objective,
      (tableau.rows.pass tableau.agenda action).2⟩ := by
  have walked := tableau.rows.pass_eq tableau.agenda action
  obtain ⟨_, keeps, _, follows⟩ := notes.passEntries tableau.rows.entries tableau.agenda
  have origin := touched_passEntries notes tableau.rows.entries tableau.agenda
  rw [← walked] at keeps follows origin
  refine ⟨keeps, fun symbol _ external => ?_, fun symbol member => ?_⟩
  · have lookup := form?_of_equations_eq (fun _ => change) equations (fun _ _ _ _ => rfl) symbol
    cases found : tableau.form? symbol with
    | none =>
        rw [found, Option.map_none] at lookup
        exact Or.inl ((value_of_not_basic lookup).trans (value_of_not_basic found).symm)
    | some form =>
        rw [found, Option.map_some] at lookup
        obtain ⟨row, member, named, is_form⟩ := (form?_eq_some_iff _ _ _).mp lookup
        obtain ⟨after, inside, rfl⟩ := List.mem_map.mp member
        obtain ⟨before, earlier, same, unchanged | ⟨_, _, told⟩⟩ := follows after inside
        · have listed : (before.1, before.2.form) ∈ tableau.equations :=
            List.mem_map_of_mem earlier
          have present := form?_of_mem listed
          rw [tableau.form?_congr ((congrArg Symbol.id same).trans named), found] at present
          rw [value_of_form? lookup, value_of_form? found, ← is_form, Option.some.inj present]
          exact Or.inl (congrArg (fun row => row.form.constant) unchanged)
        · refine Or.inr ⟨after.1, told ?_, named⟩
          have row_proper := proper (before.1, before.2.form) (List.mem_map_of_mem earlier)
          rw [← same]
          refine (row_proper.isOf_iff .external).mpr ?_
          change kinds before.1.id = _
          rw [same]
          exact (congrArg kinds named).trans external
  · rcases origin symbol member with before | ⟨entry, inside, rfl⟩
    · exact Or.inl before
    · exact Or.inr (heeds (entry.1, entry.2.form) (List.mem_map_of_mem inside))

omit [Scalar α] in
theorem Heeds.discard (heeds : tableau.Heeds ignored) (symbol : Symbol) :
    (tableau.discard symbol).Heeds ignored :=
  fun row member => heeds row ((tableau.mem_equations_discard_iff symbol row).mp member).1

theorem tells_eliminate (proper : ∀ row ∈ tableau.equations, row.1.Proper kinds)
    (heeds : tableau.Heeds ignored) (symbol : Symbol) (definition : LinearForm α) :
    tableau.Tells kinds ignored (tableau.eliminate symbol definition) :=
  tells_pass proper heeds (notes_eliminate symbol definition)
    (fun form => form.substitute symbol definition) _
    (tableau.equations_eliminate symbol definition)

theorem tells_pivot (proper : ∀ row ∈ tableau.equations, row.1.Proper kinds)
    (heeds : tableau.Heeds ignored) {entering : Symbol} (proper_entering : entering.Proper kinds)
    (heeded : ¬ ignored entering.id) (form : LinearForm α) (leaving : Symbol) :
    tableau.Tells kinds ignored (tableau.pivot form entering leaving) :=
  (tells_eliminate proper heeds entering _).trans (tells_put proper_entering heeded _)

theorem tells_forget (tableau : Tableau α) (symbol : Symbol) :
    tableau.Tells kinds ignored (tableau.forget symbol) := by
  refine ⟨fun _ => id, fun other _ _ => Or.inl ?_, fun _ => Or.inl⟩
  rw [value, value, form?_forget, Option.map_map]
  rfl

theorem tells_raise {symbol : Symbol} (internal : kinds symbol.id ≠ .external)
    (basic : tableau.form? symbol ≠ none) (amount : α) :
    tableau.Tells kinds ignored (tableau.raise symbol amount) := by
  have touched := touched_raise tableau symbol amount
  refine ⟨fun _ => by rw [touched]; exact id, fun other _ external => Or.inl ?_,
    fun _ => by rw [touched]; exact Or.inl⟩
  have elsewhere : other.id ≠ symbol.id := fun same => internal (same ▸ external)
  rw [value, form?_of_equations_eq (fun other form => if other.id = symbol.id then
    { form with constant := form.constant + amount } else form) (equations_raise basic amount)
    (fun _ _ _ same => by rw [same]) other]
  simp only [if_neg elsewhere, Option.map_id']
  rfl

theorem tells_advance (proper : ∀ row ∈ tableau.equations, row.1.Proper kinds)
    (heeds : tableau.Heeds ignored) (symbol : Symbol) (amount : α) :
    tableau.Tells kinds ignored (tableau.advance symbol amount) := by
  rw [advance_eq]
  apply tells_pass proper heeds (notes_advanceRow symbol amount) (grow · symbol amount)
  rw [← advance_eq]
  exact equations_advance_eq_grow tableau symbol amount

end AnyArithmetic

variable {kinds : Nat → Symbol.Kind} {ignored : Nat → Prop} {tableau other third : Tableau Rat}

/-- Symbols on which the solutions do not depend may be ignored. -/
theorem Regular.heeds (regular : tableau.Regular kinds)
    (indifferent : ∀ id, ignored id → tableau.Indifferent id) : tableau.Heeds ignored := by
  intro row member is_ignored
  have free := regular.form?_of_indifferent (indifferent row.1.id is_ignored)
  exact (tableau.form?_eq_none_iff row.1).mp free row member rfl

theorem tells_dropMarker (regular : tableau.Regular kinds) (heeds : tableau.Heeds ignored)
    {marker : Symbol} (proper : marker.Proper kinds) :
    tableau.Tells kinds ignored (tableau.dropMarker marker) := by
  cases tableau.dropping marker with
  | basic form found result =>
      rw [result]
      exact tells_discard proper heeds.of_form?
  | exchanged leaving form coefficient free member found yields result =>
      rw [result]
      exact (tells_discard (regular.proper _ member) heeds.of_form?).trans
        (tells_eliminate (regular.discard leaving).proper (heeds.discard leaving) marker _)
  | absent foreign result =>
      rw [result]
      exact Tells.refl tableau

theorem tells_shift {constraint : Constraint Rat} (elastic : Elastic kinds constraint)
    (regular : tableau.Regular kinds) (heeds : tableau.Heeds ignored) (amount : Rat) :
    tableau.Tells kinds ignored (tableau.shift constraint.markers amount) := by
  have other_owned : constraint.Owns constraint.markers.other.id :=
    ⟨(elastic.fit.markers.other_proper elastic.soft).1.1, Or.inr rfl⟩
  rcases tableau.shift_cases constraint.markers amount with
    ⟨basic, result⟩ | ⟨basic, result⟩ | ⟨_, result⟩
  · rw [result]
    exact tells_raise (elastic.fit.kind_ne_external elastic.fit.owns_marker) basic _
  · rw [result]
    exact tells_raise (elastic.fit.kind_ne_external other_owned) basic _
  · rw [result]
    exact tells_advance regular.proper heeds _ _

/-! ## Whole phases -/

/-- A pivot of the primal phase does not touch what the solutions do not depend on. -/
theorem Descent.Sound.tells_step {start now following : Descent Rat}
    (sound : Descent.Sound kinds start now)
    (indifferent : ∀ id, ignored id → start.tableau.Indifferent id)
    (moves : now.step = .next following) :
    now.tableau.Tells kinds ignored following.tableau := by
  have indifferent_now : ∀ id, ignored id → now.tableau.Indifferent id :=
    fun id is_ignored => sound.equivalent.indifferent (indifferent id is_ignored)
  have indifferent_after : ∀ id, ignored id → following.tableau.Indifferent id :=
    fun id is_ignored => (sound.step moves).equivalent.indifferent (indifferent id is_ignored)
  have regular := sound.equivalent.regular
  have heeds := regular.heeds indifferent_now
  obtain ⟨entering, leaving, form, chosen, left, found, rfl⟩ := Descent.of_step_eq_next moves
  obtain ⟨exchange, _, _, _⟩ := sound.exchange chosen left found
  have leaving_proper : leaving.Proper kinds := by
    obtain ⟨row, member, same, _⟩ := (form?_eq_some_iff _ leaving form).mp found
    obtain ⟨_, _, inside, _⟩ := of_leaving?_eq_some left
    exact regular.proper _ inside
  have entering_heeded : ¬ ignored entering.id := by
    have regular_after := (sound.step moves).equivalent.regular
    refine (regular_after.heeds indifferent_after).of_form? ?_
    rw [form?_pivot, if_pos rfl]
    exact Option.some_ne_none _
  exact (tells_discard leaving_proper heeds.of_form?).trans
    (tells_pivot (regular.discard leaving).proper (heeds.discard leaving) exchange.proper
      entering_heeded form leaving)

theorem tells_descend (regular : tableau.Regular kinds) (tidy : tableau.Tidy kinds)
    {goal? : Option (LinearForm Rat)}
    (settled : tableau.Settled kinds (goal?.getD tableau.objective))
    (confined : (goal?.getD tableau.objective).Over fun symbol => symbol.isExternal = false)
    (indifferent : ∀ id, ignored id → tableau.Indifferent id) (steps : Nat) :
    tableau.Tells kinds ignored (tableau.descend steps goal?).state.tableau := by
  have keeps : ∀ now following : Descent Rat,
      Descent.Sound kinds ⟨tableau, goal?⟩ now ∧ tableau.Tells kinds ignored now.tableau →
        now.step = .next following → Descent.Sound kinds ⟨tableau, goal?⟩ following ∧
          tableau.Tells kinds ignored following.tableau :=
    fun _ _ holds moves => ⟨holds.1.step moves,
      holds.2.trans (holds.1.tells_step indifferent moves)⟩
  exact (iterate_invariant keeps steps _
    ⟨Descent.Sound.refl regular tidy settled confined, Tells.refl tableau⟩).2

/-- Nor does a step of the dual phase. -/
theorem Repairing.tells (repairing : tableau.Repairing other) (regular : tableau.Regular kinds)
    (tidy : tableau.Tidy kinds)
    (indifferent : ∀ id, ignored id → tableau.Indifferent id) :
    tableau.Tells kinds ignored other := by
  have heeds := regular.heeds indifferent
  have equivalent := (repairing.equivalent regular tidy).1
  have heeds_after : other.Heeds ignored := equivalent.regular.heeds fun id is_ignored =>
    equivalent.indifferent (indifferent id is_ignored)
  cases repairing with
  | gone leaving waiting queue absent result =>
      rw [result]
      exact Tells.of_alike ⟨rfl, rfl⟩ rfl
  | calm leaving waiting form queue found fine result =>
      rw [result]
      exact Tells.of_alike (tableau.alike_calmed leaving waiting) rfl
  | lifted leaving waiting form queue found negative entering chosen result =>
      obtain ⟨proper, _⟩ := tidy.queue leaving (queue ▸ List.mem_cons_self)
      have alike := tableau.alike_calmed leaving waiting
      have heeds_calmed : (tableau.calmed leaving waiting).Heeds ignored :=
        fun row member => heeds row (alike.equations ▸ member)
      have regular_calmed := alike.regular regular
      have exchange := regular_calmed.exchange_lifted proper
        ((alike.form? leaving).trans found) chosen
      have heeded : ¬ ignored entering.id := by
        refine heeds_after.of_form? ?_
        rw [result, form?_pivot, if_pos rfl]
        exact Option.some_ne_none _
      rw [result]
      exact ((Tells.of_alike alike rfl).trans (tells_discard proper heeds_calmed.of_form?)).trans
        (tells_pivot (regular_calmed.discard leaving).proper (heeds_calmed.discard leaving)
          exchange.proper heeded form leaving)
  | stuck leaving waiting form queue found negative missing result =>
      obtain ⟨proper, _⟩ := tidy.queue leaving (queue ▸ List.mem_cons_self)
      have alike := tableau.alike_calmed leaving waiting
      have heeds_calmed : (tableau.calmed leaving waiting).Heeds ignored :=
        fun row member => heeds row (alike.equations ▸ member)
      rw [result]
      refine ((Tells.of_alike alike rfl).trans (tells_discard proper heeds_calmed.of_form?)).trans
        (tells_put proper (heeds.of_form? ?_) form)
      rw [found]
      exact Option.some_ne_none _

theorem tells_repair (regular : tableau.Regular kinds) (tidy : tableau.Tidy kinds)
    (indifferent : ∀ id, ignored id → tableau.Indifferent id) (steps : Nat) :
    tableau.Tells kinds ignored (tableau.repair steps).state := by
  have keeps : ∀ now following : Tableau Rat,
      tableau.Equivalent kinds now ∧ now.Tidy kinds ∧ tableau.Tells kinds ignored now →
        now.repairStep = .next following → tableau.Equivalent kinds following ∧
          following.Tidy kinds ∧ tableau.Tells kinds ignored following := by
    rintro now following ⟨equivalent, tidy_now, tells⟩ moves
    have repairing := of_repairStep_eq_next moves
    obtain ⟨equivalent', tidy'⟩ := repairing.equivalent equivalent.regular tidy_now
    refine ⟨equivalent.trans equivalent', tidy', tells.trans ?_⟩
    exact repairing.tells equivalent.regular tidy_now fun id is_ignored =>
      equivalent.indifferent (indifferent id is_ignored)
  exact (iterate_invariant keeps steps tableau ⟨.refl regular, tidy, Tells.refl tableau⟩).2.2

end SoftSimplex.Tableau
