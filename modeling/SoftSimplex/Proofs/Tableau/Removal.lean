import SoftSimplex.Proofs.Tableau.Choice
import SoftSimplex.Proofs.Tableau.Insertion

/-!
# Taking symbols and constraints out

Forgetting a free symbol holds it at zero. Dropping a marker lets it take any value: the solutions
that are left are those that some number for the marker completes. The marker of a constraint
occurs in no other constraint, so dropping it takes exactly this constraint out of the ledger.
-/

namespace SoftSimplex.Tableau

variable {kinds : Nat → Symbol.Kind} {tableau : Tableau Rat} {symbol : Symbol}

/-- The symbol has no row and occurs in none. -/
def Foreign (tableau : Tableau Rat) (symbol : Symbol) : Prop :=
  ∀ row ∈ tableau.equations, row.1.id ≠ symbol.id ∧ row.2.mentions symbol = false

theorem Foreign.solves_set_iff (foreign : tableau.Foreign symbol) (assignment : Assignment)
    (number : Rat) :
    Solves (assignment.set symbol.id number) tableau ↔ Solves assignment tableau := by
  refine forall₂_congr fun row member => ?_
  obtain ⟨apart, unmentioned⟩ := foreign row member
  rw [Symbol.under_set_of_ne apart,
    (LinearForm.over_ne_of_not_mentions unmentioned).eval_set]

theorem Foreign.free (foreign : tableau.Foreign symbol) : tableau.form? symbol = none :=
  (tableau.form?_eq_none_iff symbol).mpr fun row member => (foreign row member).1

theorem Regular.foreign_of_indifferent (regular : tableau.Regular kinds)
    (proper : symbol.id ≠ 0) (indifferent : tableau.Indifferent symbol.id) :
    tableau.Foreign symbol := by
  intro row member
  refine ⟨?_, regular.mentions_of_indifferent proper indifferent member⟩
  exact (tableau.form?_eq_none_iff symbol).mp (regular.form?_of_indifferent indifferent) row member

/-- The other rows do not speak of a basic symbol. -/
theorem Regular.foreign_discard (regular : tableau.Regular kinds) {form : LinearForm Rat}
    (found : tableau.form? symbol = some form) : (tableau.discard symbol).Foreign symbol := by
  intro row member
  obtain ⟨inside, apart⟩ := (tableau.mem_equations_discard_iff symbol row).mp member
  exact ⟨apart, (regular.settled row inside).mentions_basic found⟩

/-- Only kinds of symbols that do not occur have changed. -/
theorem Regular.rekind (regular : tableau.Regular kinds) {kinds' : Nat → Symbol.Kind}
    (agree : ∀ symbol : Symbol, symbol.Proper kinds → kinds' symbol.id = kinds symbol.id ∨
      (tableau.Foreign symbol ∧ tableau.objective.mentions symbol = false)) :
    tableau.Regular kinds' := by
  have keep : ∀ symbol : Symbol, symbol.Proper kinds →
      ¬ (tableau.Foreign symbol ∧ tableau.objective.mentions symbol = false) →
        symbol.Proper kinds' := by
    intro symbol proper occurs
    refine ⟨proper.1, ?_⟩
    rw [(agree symbol proper).resolve_right occurs]
    exact proper.2
  have settle : ∀ form, tableau.Settled kinds form →
      (∀ term ∈ form.terms,
        ¬ (tableau.Foreign term.1 ∧ tableau.objective.mentions term.1 = false)) →
      tableau.Settled kinds' form := by
    intro form settled occur
    refine ⟨fun term member => ?_, settled.reduced⟩
    have free := settled.free term member
    exact ⟨keep _ free.1 (occur term member), free.2⟩
  refine ⟨fun row member => keep _ (regular.proper row member) fun both => ?_,
    fun row member => settle _ (regular.settled row member) fun term inside both => ?_,
    regular.confined, settle _ regular.objective_settled fun term inside both => ?_,
    regular.objective_confined⟩
  · exact (both.1 row member).1 rfl
  · have unmentioned := (both.1 row member).2
    rw [LinearForm.mentions_of_mem inside] at unmentioned
    exact Bool.noConfusion unmentioned
  · have unmentioned := both.2
    rw [LinearForm.mentions_of_mem inside] at unmentioned
    exact Bool.noConfusion unmentioned

theorem form?_forget {α : Type} (tableau : Tableau α) (symbol other : Symbol) :
    (tableau.forget symbol).form? other =
      (tableau.form? other).map fun form => form.without symbol :=
  form?_of_equations_eq (fun _ form => form.without symbol)
    (tableau.equations_forget symbol) (fun _ _ _ _ => rfl) other

theorem Regular.forget (regular : tableau.Regular kinds) (symbol : Symbol) :
    (tableau.forget symbol).Regular kinds := by
  have settle : ∀ form, tableau.Settled kinds form →
      (tableau.forget symbol).Settled kinds (form.without symbol) := by
    intro form settled
    refine ⟨(settled.free.without symbol).mono fun other both => ⟨both.1.1, ?_⟩,
      settled.reduced.without symbol⟩
    rw [form?_forget, both.1.2, Option.map_none]
  constructor
  · intro row member
    rw [equations_forget] at member
    obtain ⟨before, inside, rfl⟩ := List.mem_map.mp member
    exact regular.proper before inside
  · intro row member
    rw [equations_forget] at member
    obtain ⟨before, inside, rfl⟩ := List.mem_map.mp member
    exact settle _ (regular.settled before inside)
  · intro row member internal
    rw [equations_forget] at member
    obtain ⟨before, inside, rfl⟩ := List.mem_map.mp member
    exact ((regular.confined before inside internal).without symbol).mono fun _ both => both.1
  · exact settle _ regular.objective_settled
  · exact (regular.objective_confined.without symbol).mono fun _ both => both.1

theorem eval_without_eq_eval_set (form : LinearForm Rat) (proper : symbol.id ≠ 0)
    (assignment : Assignment) :
    (form.without symbol).eval assignment = form.eval (assignment.set symbol.id 0) := by
  rw [LinearForm.eval_without, form.eval_set proper, Symbol.under_of_ne_zero proper]
  ring

/-- A free symbol that is forgotten is held at zero. -/
theorem solves_forget_iff (proper : symbol.id ≠ 0) (free : tableau.form? symbol = none)
    (assignment : Assignment) :
    Solves assignment (tableau.forget symbol) ↔
      Solves (assignment.set symbol.id 0) tableau := by
  have apart := (tableau.form?_eq_none_iff symbol).mp free
  unfold Solves
  rw [equations_forget]
  simp only [List.forall_mem_map, eval_without_eq_eval_set _ proper]
  refine forall₂_congr fun row member => ?_
  rw [Symbol.under_set_of_ne (apart row member)]

/-! ## Dropping a marker -/

/-- How a marker is dropped: with its own row, or with a row that it is exchanged for, or not at
all because it does not occur. -/
inductive Dropping (tableau : Tableau Rat) (marker : Symbol) : Prop where
  | basic (form : LinearForm Rat) (found : tableau.form? marker = some form)
      (result : tableau.dropMarker marker = tableau.discard marker)
  | exchanged (leaving : Symbol) (form : LinearForm Rat) (coefficient : Rat)
      (free : tableau.form? marker = none) (member : (leaving, form) ∈ tableau.equations)
      (found : form.coefficient? marker = some coefficient)
      (yields : tableau.Yields marker leaving form coefficient)
      (result : tableau.dropMarker marker =
        (tableau.discard leaving).eliminate marker (form.isolate marker leaving))
  | absent (foreign : tableau.Foreign marker) (result : tableau.dropMarker marker = tableau)

theorem dropping (tableau : Tableau Rat) (marker : Symbol) : tableau.Dropping marker := by
  cases found : tableau.form? marker with
  | some form =>
      refine .basic form found ?_
      simp [dropMarker, take?_eq, found]
  | none =>
      have apart := (tableau.form?_eq_none_iff marker).mp found
      cases chosen : tableau.markerLeaving? marker with
      | none =>
          refine .absent (fun row member =>
            ⟨apart row member, of_markerLeaving?_eq_none chosen member⟩) ?_
          simp [dropMarker, take?_eq, found, chosen]
      | some leaving =>
          obtain ⟨form, coefficient, member, mentioned, yields⟩ :=
            of_markerLeaving?_eq_some chosen
          refine .exchanged leaving form coefficient found member mentioned yields ?_
          have present := form?_of_mem member
          simp only at present
          simp [dropMarker, take?_eq, found, chosen, present]

/-- The exchange by which a marker without a row is dropped. -/
theorem Regular.exchange_marker (regular : tableau.Regular kinds) {marker leaving : Symbol}
    (proper : marker.Proper kinds) {form : LinearForm Rat} {coefficient : Rat}
    (member : (leaving, form) ∈ tableau.equations)
    (found : form.coefficient? marker = some coefficient) :
    (tableau.discard leaving).Exchange kinds form marker leaving := by
  refine regular.exchange (regular.proper _ member) (form?_of_mem member) proper ?_
  rw [LinearForm.mentions_eq_isSome, found]
  rfl

/-- Every solution that is left is one of before, with some number for the marker, and the
objective has the value that it had there. -/
theorem Regular.exists_of_solves_dropMarker (regular : tableau.Regular kinds) {marker : Symbol}
    (proper : marker.Proper kinds) {assignment : Assignment}
    (solves : Solves assignment (tableau.dropMarker marker)) :
    ∃ number, Solves (assignment.set marker.id number) tableau ∧
      (tableau.dropMarker marker).objective.eval assignment =
        tableau.objective.eval (assignment.set marker.id number) := by
  cases tableau.dropping marker with
  | basic form found result =>
      rw [result] at solves ⊢
      have foreign := regular.foreign_discard found
      have unmentioned := LinearForm.over_ne_of_not_mentions
        (regular.objective_settled.mentions_basic found)
      refine ⟨form.eval assignment, ?_, ?_⟩
      · rw [solves_discard_iff found, foreign.solves_set_iff,
          Symbol.under_of_ne_zero proper.1, Assignment.set_same,
          (LinearForm.over_ne_of_not_mentions
            ((regular.settled_of_form? found).mentions_basic found)).eval_set]
        exact ⟨solves, rfl⟩
      · rw [objective_discard, unmentioned.eval_set]
  | exchanged leaving form coefficient free member found yields result =>
      rw [result] at solves ⊢
      have exchange := regular.exchange_marker proper member found
      have before := (exchange.solves_eliminate_iff assignment).mp solves
      refine ⟨(form.isolate marker leaving).eval assignment, ?_, ?_⟩
      · rw [solves_discard_iff (form?_of_mem member)]
        exact ⟨before, (exchange.equation_set_iff assignment _).mpr rfl⟩
      · rw [objective_eliminate, exchange.eval_substitute, objective_discard]
  | absent foreign result =>
      rw [result] at solves ⊢
      exact ⟨assignment marker.id, by rwa [Assignment.set_self], by rw [Assignment.set_self]⟩

/-- Every solution of before is left, whatever number the marker gets. -/
theorem Regular.solves_dropMarker_of_set (regular : tableau.Regular kinds) {marker : Symbol}
    (proper : marker.Proper kinds) {assignment : Assignment} (number : Rat)
    (solves : Solves (assignment.set marker.id number) tableau) :
    Solves assignment (tableau.dropMarker marker) := by
  cases tableau.dropping marker with
  | basic form found result =>
      rw [result, ← (regular.foreign_discard found).solves_set_iff assignment number]
      exact ((solves_discard_iff found _).mp solves).1
  | exchanged leaving form coefficient free member found yields result =>
      rw [result, (regular.exchange_marker proper member found).solves_eliminate_iff_exists]
      exact ⟨number, (solves_discard_iff (form?_of_mem member) _).mp solves⟩
  | absent foreign result =>
      rw [result, ← foreign.solves_set_iff assignment number]
      exact solves

/-- A marker that nobody pays for, and that occurs in rows of external symbols only, is not
mentioned by the objective. -/
theorem Regular.objective_mentions_of_outside (regular : tableau.Regular kinds)
    {marker : Symbol} (proper : marker.Proper kinds)
    (apart : ∀ row ∈ tableau.equations, row.1.isExternal = false →
      row.2.mentions marker = false) {priced : Ledger} (priced_regular : priced.Regular kinds)
    (prices : tableau.Prices priced) (unowned : ∀ entry ∈ priced, ¬ entry.Owns marker.id) :
    tableau.objective.mentions marker = false := by
  obtain ⟨drift, is_price⟩ := prices
  let raised := Assignment.zero.set marker.id 1
  -- Raising the marker moves external basic symbols only, and no price depends on those.
  have same_price : priced.price (tableau.complete raised) =
      priced.price (tableau.complete Assignment.zero) := by
    refine congrArg List.sum (List.map_congr_left fun entry member => ?_)
    refine congrArg (entry.strength.weight * ·) (congrArg List.sum
      (List.map_congr_left fun symbol inside => ?_))
    obtain ⟨symbol_proper, is_error, owned⟩ :=
      (priced_regular.fit entry member).mem_errors inside
    have elsewhere : symbol.id ≠ marker.id := fun same => unowned entry member (same ▸ owned)
    rw [Symbol.under_of_ne_zero symbol_proper.1, Symbol.under_of_ne_zero symbol_proper.1]
    cases found : tableau.form? symbol with
    | none =>
        rw [complete_of_free found, complete_of_free found]
        exact Assignment.set_of_ne _ elsewhere 1
    | some form =>
        have internal : symbol.isExternal = false := by
          rw [Symbol.isError, Symbol.isOf_eq_true_iff] at is_error
          simp [Symbol.isExternal, Symbol.isOf, is_error.2]
        have unmentioned := apart _ (regular.mem_equations symbol_proper found) internal
        rw [complete_of_form? found, complete_of_form? found,
          (LinearForm.over_ne_of_not_mentions unmentioned).eval_set]
  refine regular.objective_settled.mentions_eq_false proper.1 Assignment.zero 1
    one_ne_zero ?_
  have settled := regular.objective_settled
  rw [← settled.eval_complete, ← settled.eval_complete Assignment.zero,
    is_price _ (regular.solves_complete _), is_price _ (regular.solves_complete _)]
  exact congrArg (drift + ·) same_price

/-- Dropping a marker that nobody pays for leaves a regular tableau. -/
theorem Regular.dropMarker (regular : tableau.Regular kinds) {marker : Symbol}
    (proper : marker.Proper kinds) {priced : Ledger} (priced_regular : priced.Regular kinds)
    (prices : tableau.Prices priced)
    (unowned : ∀ entry ∈ priced, ¬ entry.Owns marker.id) :
    (tableau.dropMarker marker).Regular kinds := by
  cases tableau.dropping marker with
  | basic form found result =>
      rw [result]
      exact regular.discard marker
  | exchanged leaving form coefficient free member found yields result =>
      rw [result]
      refine (regular.exchange_marker proper member found).regular_eliminate ?_
      cases yields with
      | falling is_internal falls tightest =>
          exact Or.inl ⟨regular.confined _ member is_internal, is_internal⟩
      | rising is_internal rises all_rise tightest =>
          exact Or.inl ⟨regular.confined _ member is_internal, is_internal⟩
      | outside is_external apart =>
          refine Or.inr ⟨fun row inside => ?_, ?_⟩
          · exact apart row ((tableau.mem_equations_discard_iff leaving row).mp inside).1
          · rw [objective_discard]
            exact regular.objective_mentions_of_outside proper apart priced_regular prices unowned
  | absent foreign result =>
      rw [result]
      exact regular

/-- Dropping the marker of a constraint takes the constraint out of the ledger. -/
theorem Means.dropMarker {constraint : Constraint Rat} {ledger : Ledger}
    (means : tableau.Means (constraint :: ledger)) (regular : tableau.Regular kinds)
    (ledger_regular : Ledger.Regular kinds (constraint :: ledger)) :
    (tableau.dropMarker constraint.markers.marker).Means ledger := by
  have fit := ledger_regular.head
  have proper := fit.markers.marker_proper
  intro assignment
  constructor
  · intro solves entry member
    obtain ⟨number, before, _⟩ := regular.exists_of_solves_dropMarker proper solves
    have balanced := (means _).mp before entry (List.mem_cons_of_mem _ member)
    rwa [(ledger_regular.avoids member fit.owns_marker).balance_set proper.1] at balanced
  · intro balanced
    obtain ⟨number, is_balanced⟩ := fit.exists_balance_eq_zero assignment
    refine regular.solves_dropMarker_of_set proper number ((means _).mpr ?_)
    rw [List.forall_mem_cons]
    refine ⟨is_balanced, fun entry member => ?_⟩
    rw [(ledger_regular.avoids member fit.owns_marker).balance_set proper.1]
    exact balanced entry member

/-- Dropping a marker that nobody pays for changes no price. -/
theorem Prices.dropMarker {priced : Ledger} (prices : tableau.Prices priced)
    (regular : tableau.Regular kinds) {marker : Symbol} (proper : marker.Proper kinds)
    (unowned : ∀ entry ∈ priced, ¬ entry.Owns marker.id) :
    (tableau.dropMarker marker).Prices priced := by
  obtain ⟨drift, is_price⟩ := prices
  refine ⟨drift, fun assignment solves => ?_⟩
  obtain ⟨number, before, same⟩ := regular.exists_of_solves_dropMarker proper solves
  rw [same, is_price _ before, Ledger.price_set proper.1 unowned]

/-- If no row is filed above the mark, rows are only trimmed. -/
theorem truncate_eq {mark : Nat} (below : ∀ row ∈ tableau.equations, row.1.id ≤ mark) :
    tableau.truncate mark =
      { tableau with
        rows := tableau.rows.map fun row =>
          { row with form := row.form.restrict fun symbol => symbol.id ≤ mark }
        objective := tableau.objective.restrict fun symbol => symbol.id ≤ mark } := by
  have nothing : (tableau.rows.symbols.filter fun symbol => decide (mark < symbol.id)) = [] := by
    rw [List.filter_eq_nil_iff]
    intro symbol member
    obtain ⟨entry, inside, rfl⟩ := List.mem_map.mp member
    have low := below (entry.1, entry.2.form) (List.mem_map_of_mem inside)
    simpa using low
  unfold truncate
  simp only [nothing, List.foldl_nil]

/-- If no symbol above the mark occurs, there is nothing to take out. -/
theorem alike_truncate {mark : Nat}
    (below : ∀ row ∈ tableau.equations, row.1.id ≤ mark ∧ row.2.Over fun symbol => symbol.id ≤ mark)
    (objective_below : tableau.objective.Over fun symbol => symbol.id ≤ mark) :
    tableau.Alike (tableau.truncate mark) := by
  have restricted : ∀ form : LinearForm Rat, (form.Over fun symbol => symbol.id ≤ mark) →
      (form.restrict fun symbol => decide (symbol.id ≤ mark)) = form := fun form spanned =>
    LinearForm.restrict_of_over (spanned.mono fun _ below => decide_eq_true below)
  rw [truncate_eq fun row member => (below row member).1]
  refine ⟨?_, restricted _ objective_below⟩
  unfold equations
  rw [SlotTable.entries_map, List.map_map]
  refine List.map_congr_left fun entry inside => ?_
  have low := (below (entry.1, entry.2.form) (List.mem_map_of_mem inside)).2
  exact Prod.ext rfl (restricted _ low)

end SoftSimplex.Tableau
