import SoftSimplex.Proofs.Tableau.Stages

/-!
# Entering a constraint

A draft is the row of a constraint whose price is charged already but which no row stands for yet.
Solving it for one of its symbols enters the constraint. If there is no symbol to solve it for,
its value is lowered with the help of an artificial symbol. Should the value stay positive, no
choice for the variables meets the required entries, and dropping the marker again leaves a
feasible tableau.
-/

namespace SoftSimplex.Tableau

variable {kinds : Nat → Symbol.Kind} {discipline : Discipline} {ledger : Ledger}
  {constraint : Constraint Rat} {tableau base : Tableau Rat} {form : LinearForm Rat}

/-- The row of a constraint that is charged but not entered. -/
structure Draft (kinds : Nat → Symbol.Kind) (ledger : Ledger) (constraint : Constraint Rat)
    (base : Tableau Rat) (form : LinearForm Rat) : Prop where
  stands : base.Stands kinds ledger (constraint :: ledger)
  entries : Ledger.Regular kinds (constraint :: ledger)
  settled : base.Settled kinds form
  nonneg : 0 ≤ form.constant
  balances : ∃ factor : Rat, (factor = 1 ∨ factor = -1) ∧
    ∀ assignment, Solves assignment base →
      form.eval assignment = constraint.balance assignment * factor

/-- A tableau that a constraint has been entered into. No row of a dummy mentions the marker, as
far as the discipline promises anything about such rows. -/
structure Entered (discipline : Discipline) (kinds : Nat → Symbol.Kind) (ledger : Ledger)
    (constraint : Constraint Rat) (after : Tableau Rat) : Prop where
  stands : after.Stands kinds (constraint :: ledger) (constraint :: ledger)
  grounded : discipline.steady →
    after.Grounded fun symbol => symbol.id ≠ constraint.markers.marker.id
  feasible : discipline.steady → discipline.priced → after.Feasible

theorem Entered.upright {after : Tableau Rat}
    (entered : after.Entered discipline kinds ledger constraint) : after.Upright discipline :=
  ⟨fun steady => (entered.grounded steady).mono fun _ _ => trivial, entered.feasible⟩

/-- The tableau does not know the markers of a constraint that is not entered. -/
theorem Means.foreign_of_owned (means : tableau.Means ledger)
    (regular : tableau.Regular kinds) (entries : Ledger.Regular kinds (constraint :: ledger))
    {symbol : Symbol} (owned : constraint.Owns symbol.id) : tableau.Foreign symbol :=
  regular.foreign_of_indifferent owned.1
    (means.indifferent owned.1 fun _ member => entries.avoids member owned)

/-- Charging for a constraint gives its draft. -/
theorem Stands.draft (stands : tableau.Stands kinds ledger ledger)
    (entries : Ledger.Regular kinds (constraint :: ledger)) :
    (tableau.chargeFresh constraint.markers.errors constraint.strength.weight).Draft kinds ledger
      constraint (tableau.rowFor constraint.expression constraint.markers) := by
  have fit := entries.head
  have free : ∀ symbol : Symbol, symbol.Proper kinds → constraint.Owns symbol.id →
      tableau.Free kinds symbol := fun symbol proper owned =>
    ⟨proper, (stands.means.foreign_of_owned stands.regular entries owned).free⟩
  have errors : ∀ symbol ∈ constraint.markers.errors,
      tableau.Free kinds symbol ∧ symbol.isExternal = false := by
    intro symbol member
    obtain ⟨proper, _, owned⟩ := fit.mem_errors member
    exact ⟨free symbol proper owned, (fit.internal_errors symbol member).2⟩
  have markers : ∀ symbol ∈ [constraint.markers.marker, constraint.markers.other],
      symbol.isNull = false → tableau.Free kinds symbol := by
    intro symbol member present
    have nonzero := symbol.isNull_eq_false_iff.mp present
    rw [List.mem_cons, List.mem_singleton] at member
    exact free symbol (fit.markers.proper member nonzero)
      (Constraint.owns_of_present member nonzero)
  have row := stands.regular.settled_rowFor (fit.expression.mono fun _ both => both.1) markers
  obtain ⟨factor, is_sign, same⟩ :=
    tableau.exists_eval_rowFor constraint.expression constraint.markers
  exact ⟨⟨stands.regular.chargeFresh errors _, ⟨stands.tidy.queue, stands.tidy.flagged⟩,
    stands.means, stands.prices.chargeFresh constraint⟩, entries, ⟨row.free, row.reduced⟩,
    tableau.constant_rowFor_nonneg _ _, factor, is_sign, same⟩

namespace Draft

/-- The draft vanishes where the constraint is balanced. -/
theorem eval_eq_zero_iff (draft : base.Draft kinds ledger constraint form)
    {assignment : Assignment} (solves : Solves assignment base) :
    form.eval assignment = 0 ↔ constraint.balance assignment = 0 := by
  obtain ⟨factor, is_sign, same⟩ := draft.balances
  have nonzero : factor ≠ 0 := by rcases is_sign with rfl | rfl <;> norm_num
  rw [same assignment solves, mul_eq_zero, or_iff_left nonzero]

theorem foreign_marker (draft : base.Draft kinds ledger constraint form) :
    base.Foreign constraint.markers.marker :=
  draft.stands.means.foreign_of_owned draft.stands.regular draft.entries
    draft.entries.head.owns_marker

/-- The draft mentions nothing that the ledger and the constraint do not speak of. -/
theorem mentions_eq_false (draft : base.Draft kinds ledger constraint form) {symbol : Symbol}
    (proper : symbol.id ≠ 0) (avoided : ∀ entry ∈ constraint :: ledger, entry.Avoids symbol.id) :
    form.mentions symbol = false := by
  obtain ⟨factor, _, same⟩ := draft.balances
  have solves := draft.stands.regular.solves_complete Assignment.zero
  have indifferent := draft.stands.means.indifferent proper fun entry member =>
    avoided entry (List.mem_cons_of_mem _ member)
  refine draft.settled.mentions_eq_false proper (base.complete Assignment.zero)
    (base.complete Assignment.zero symbol.id + 1) (by simp) ?_
  rw [same _ (indifferent _ _ solves), same _ solves,
    (avoided constraint List.mem_cons_self).balance_set proper]

/-- The draft mentions the marker. -/
theorem mentions_marker (draft : base.Draft kinds ledger constraint form) :
    form.mentions constraint.markers.marker = true := by
  by_contra unmentioned
  rw [Bool.not_eq_true] at unmentioned
  obtain ⟨factor, is_sign, same⟩ := draft.balances
  have fit := draft.entries.head
  let solution := base.complete Assignment.zero
  have solves : Solves solution base := draft.stands.regular.solves_complete Assignment.zero
  have solves' := (draft.foreign_marker.solves_set_iff solution
    (solution constraint.markers.marker.id + 1)).mpr solves
  have unmoved := (LinearForm.over_ne_of_not_mentions unmentioned).eval_set solution
    (solution constraint.markers.marker.id + 1)
  rw [same _ solves', same _ solves, fit.balance_set_marker, add_sub_cancel_left, mul_one]
    at unmoved
  have nonzero := constraint.markers.sign_ne_zero
  rcases is_sign with rfl | rfl <;> exact nonzero (by linarith)

/-- A draft without external symbols belongs to a constraint whose variables all matter to the
tableau. -/
theorem expression_avoids (draft : base.Draft kinds ledger constraint form)
    (confined : form.Over fun symbol => symbol.isExternal = false)
    (reduced : constraint.expression.Reduced) {symbol : Symbol} (proper : symbol.id ≠ 0)
    (external : kinds symbol.id = .external) (indifferent : base.Indifferent symbol.id) :
    constraint.expression.Over fun other => other.id ≠ symbol.id := by
  by_contra mentioned
  have mentions : constraint.expression.mentions symbol = true := by
    rw [← Bool.not_eq_false]
    exact fun unmentioned => mentioned (LinearForm.over_ne_of_not_mentions unmentioned)
  have nonzero := reduced.coefficient_ne_zero mentions
  obtain ⟨factor, is_sign, same⟩ := draft.balances
  let solution := base.complete Assignment.zero
  let moved := solution.set symbol.id (solution symbol.id + 1)
  have solves : Solves solution base := draft.stands.regular.solves_complete Assignment.zero
  have solves' : Solves moved base := indifferent solution _ solves
  have unmoved : form.eval moved = form.eval solution := by
    refine LinearForm.Over.eval_set ((draft.settled.proper.and confined).mono
      fun other both same_id => ?_) _ _
    have kind := both.1.2
    rw [same_id, external] at kind
    have is_external : other.isExternal = true :=
      (Symbol.isOf_eq_true_iff _ _).mpr ⟨both.1.1, kind⟩
    rw [both.2] at is_external
    exact Bool.noConfusion is_external
  have parts : constraint.markers.marker.under moved = constraint.markers.marker.under solution ∧
      constraint.markers.other.under moved = constraint.markers.other.under solution :=
    Constraint.under_set_of_not_owns proper
      (fun owned => draft.entries.head.kind_ne_external owned external) solution _
  have expression : constraint.expression.eval moved =
      constraint.expression.eval solution + constraint.expression.coefficient symbol := by
    have grown := constraint.expression.eval_set proper solution (solution symbol.id + 1)
    rw [add_sub_cancel_left, mul_one] at grown
    exact grown
  have difference : constraint.balance moved =
      constraint.balance solution + constraint.expression.coefficient symbol := by
    rw [Constraint.balance_eq, Constraint.balance_eq, expression, parts.1, parts.2]
    ring
  rw [same _ solves', same _ solves, difference] at unmoved
  rcases is_sign with rfl | rfl <;> exact nonzero (by linarith)

/-- No row of a dummy mentions the marker yet. -/
theorem grounded_marker (draft : base.Draft kinds ledger constraint form)
    (grounded : base.Grounded fun _ => True) :
    base.Grounded fun symbol => symbol.id ≠ constraint.markers.marker.id := by
  intro row member is_dummy
  obtain ⟨constant, spanned⟩ := grounded row member is_dummy
  have unmentioned := (draft.foreign_marker row member).2
  exact ⟨constant, fun term inside => ⟨(spanned term inside).1,
    LinearForm.over_ne_of_not_mentions unmentioned term inside⟩⟩

/-- A draft is an equation that can be solved for any of its symbols. -/
theorem exchange (draft : base.Draft kinds ledger constraint form) {entering : Symbol}
    (proper : entering.Proper kinds) (mentioned : form.mentions entering = true) :
    base.Exchange kinds form entering Symbol.null := by
  refine ⟨draft.stands.regular, draft.settled, proper, mentioned, fun present => by simp at present,
    ?_⟩
  rw [LinearForm.mentions_eq_false_iff]
  exact fun term member same => (draft.settled.proper term member).1 same

theorem exchange_marker (draft : base.Draft kinds ledger constraint form) :
    base.Exchange kinds form constraint.markers.marker Symbol.null :=
  draft.exchange draft.entries.head.markers.marker_proper draft.mentions_marker

/-- The symbol chosen for a draft is external if the draft mentions an external one. -/
theorem exchange_subject (draft : base.Draft kinds ledger constraint form) {subject : Symbol}
    (chosen : form.subject? [constraint.markers.marker, constraint.markers.other] =
      some subject) :
    base.Exchange kinds form subject Symbol.null ∧
      (subject.isExternal = true ∨ form.Over fun symbol => symbol.isExternal = false) := by
  rcases LinearForm.of_subject?_eq_some chosen with
    ⟨is_external, coefficient, member⟩ | ⟨confined, among, restricted, coefficient, found, _⟩
  · exact ⟨draft.exchange (draft.settled.proper _ member) (LinearForm.mentions_of_mem member),
      Or.inl is_external⟩
  · rw [List.mem_cons, List.mem_singleton] at among
    have proper := draft.entries.head.markers.proper among
      ((Symbol.isRestricted_eq_true_iff _).mp restricted).1
    refine ⟨draft.exchange proper ?_, Or.inr confined⟩
    rw [LinearForm.mentions_eq_isSome, found]
    rfl

/-- Solving a draft for one of its symbols enters the constraint. -/
theorem enter (draft : base.Draft kinds ledger constraint form)
    (upright : base.Upright discipline) {entering : Symbol} (proper : entering.Proper kinds)
    (mentioned : form.mentions entering = true)
    (confined : entering.isExternal = true ∨ form.Over fun symbol => symbol.isExternal = false)
    (untouched : base.Untouched entering)
    (restricted : entering.isRestricted = true →
      0 ≤ (form.isolate entering Symbol.null).constant)
    (dummy : entering.isDummy = true → (form.isolate entering Symbol.null).constant = 0 ∧
      (form.isolate entering Symbol.null).Over fun symbol =>
        symbol.isDummy = true ∧ symbol.id ≠ constraint.markers.marker.id) :
    (base.pivot form entering Symbol.null).Entered discipline kinds ledger constraint := by
  have exchange := draft.exchange proper mentioned
  refine ⟨⟨exchange.regular_pivot (confined.imp_right fun spanned => ⟨spanned, rfl⟩),
    draft.stands.tidy.pivot draft.stands.regular _ _ _, ?_, draft.stands.prices.pivot exchange⟩,
    fun steady => ?_, fun steady is_priced => ?_⟩
  · exact draft.stands.means.pivot exchange fun _ solves => draft.eval_eq_zero_iff solves
  · exact exchange.grounded_pivot untouched (draft.grounded_marker (upright.grounded steady)) dummy
  · exact exchange.feasible_pivot untouched (upright.feasible steady is_priced) restricted

/-- Solving a draft for the symbol chosen for it. -/
theorem enter_subject (draft : base.Draft kinds ledger constraint form)
    (upright : base.Upright discipline) {subject : Symbol}
    (chosen : form.subject? [constraint.markers.marker, constraint.markers.other] =
      some subject) :
    subject.Proper kinds ∧
      (base.pivot form subject Symbol.null).Entered discipline kinds ledger constraint := by
  -- An external subject may take any value. A marker is chosen only with a negative coefficient, so
  -- that its own row starts out nonnegative.
  rcases LinearForm.of_subject?_eq_some chosen with
    ⟨is_external, coefficient, member⟩ | ⟨confined, among, restricted, coefficient, found, falls⟩
  · have proper := draft.settled.proper _ member
    have not_restricted : subject.isRestricted = true → False := by
      intro restricted
      rw [Symbol.isExternal_eq_false_of_isRestricted restricted] at is_external
      exact Bool.noConfusion is_external
    have not_dummy : subject.isDummy = true → False := by
      intro is_dummy
      rw [Symbol.isExternal_eq_false_of_isDummy is_dummy] at is_external
      exact Bool.noConfusion is_external
    exact ⟨proper, draft.enter upright proper (LinearForm.mentions_of_mem member)
      (Or.inl is_external) (draft.stands.regular.aside_of_isExternal proper is_external).1
      (fun restricted => (not_restricted restricted).elim)
      fun is_dummy => (not_dummy is_dummy).elim⟩
  · have present : subject.id ≠ 0 := ((Symbol.isRestricted_eq_true_iff _).mp restricted).1
    have mentioned : form.mentions subject = true := by
      rw [LinearForm.mentions_eq_isSome, found]
      rfl
    rw [List.mem_cons, List.mem_singleton] at among
    have proper := draft.entries.head.markers.proper among present
    have owned := Constraint.owns_of_present among present
    have foreign : base.Foreign subject := draft.stands.means.foreign_of_owned draft.stands.regular
      draft.entries owned
    refine ⟨proper, draft.enter upright proper mentioned (Or.inr confined) foreign.untouched
      (fun _ => ?_) fun is_dummy => ?_⟩
    · rw [(draft.exchange proper mentioned).constant_definition,
        LinearForm.coefficient_of_eq_some found]
      exact div_nonneg_of_nonpos (neg_nonpos.mpr draft.nonneg) falls.le
    · rw [Symbol.isDummy_eq_false_of_isRestricted restricted] at is_dummy
      exact Bool.noConfusion is_dummy

/-- A draft of dummies that vanishes is solved for its marker. -/
theorem enter_dummy (draft : base.Draft kinds ledger constraint form)
    (upright : base.Upright discipline) (only : form.hasOnlyDummies = true)
    (vanishes : form.constant = 0) :
    (base.pivot form constraint.markers.marker Symbol.null).Entered discipline kinds ledger
      constraint := by
  have proper := draft.entries.head.markers.marker_proper
  have dummies := LinearForm.of_hasOnlyDummies only
  have constant : (form.isolate constraint.markers.marker Symbol.null).constant = 0 := by
    rw [draft.exchange_marker.constant_definition, vanishes, neg_zero, zero_div]
  refine draft.enter upright proper draft.mentions_marker (Or.inr ?_)
    draft.foreign_marker.untouched (fun _ => constant.ge) fun _ => ⟨constant, ?_⟩
  · exact dummies.mono fun symbol is_dummy => Symbol.isExternal_eq_false_of_isDummy is_dummy
  · exact LinearForm.Over.isolate (dummies.mono fun symbol is_dummy apart => ⟨is_dummy, apart⟩)
      fun there => by simp at there

/-- Where the required entries are met, the draft vanishes on some admissible solution. -/
theorem exists_vanishing (draft : base.Draft kinds ledger constraint form) {given : Assignment}
    (met : Ledger.Met (constraint :: ledger) given) :
    ∃ point : Assignment, point.Admissible kinds ∧ Solves point base ∧ form.eval point = 0 := by
  obtain ⟨point, admissible, _, balanced, _⟩ := draft.entries.exists_extension met
  have solves : Solves point base := (draft.stands.means point).mpr fun entry member =>
    balanced entry (List.mem_cons_of_mem _ member)
  exact ⟨point, admissible, solves,
    (draft.eval_eq_zero_iff solves).mpr (balanced constraint List.mem_cons_self)⟩

/-- A draft of dummies that does not vanish contradicts the required entries. -/
theorem not_met_of_dummies (draft : base.Draft kinds ledger constraint form)
    (only : form.hasOnlyDummies = true) (nonzero : form.constant ≠ 0) (given : Assignment) :
    ¬ Ledger.Met (constraint :: ledger) given := by
  intro met
  obtain ⟨point, admissible, _, vanishes⟩ := draft.exists_vanishing met
  have spanned : form.Over fun symbol => symbol.Proper kinds ∧ symbol.isDummy = true :=
    draft.settled.proper.and (LinearForm.of_hasOnlyDummies only)
  have same : form.eval point = form.eval Assignment.zero := by
    refine LinearForm.eval_congr spanned fun symbol both => ?_
    rw [Symbol.under_of_ne_zero both.1.1, Symbol.under_zero]
    exact (admissible symbol both.1).dummy both.2
  rw [vanishes, LinearForm.eval_zero] at same
  exact nonzero same.symm

end Draft

end SoftSimplex.Tableau
