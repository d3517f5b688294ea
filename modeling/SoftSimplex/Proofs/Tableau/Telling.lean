import SoftSimplex.Proofs.Tableau.OrderedPhases

/-!
# Ordered tableaus tell of their changes

Work on a tableau that is in order touches every external symbol whose solved value it moves,
whatever the arithmetic does and wherever it stops. The symbols of such a tableau bear their true
kinds, so a row that came, went or changed is known to be external if a variable has its number.
-/

namespace SoftSimplex

theorem LinearForm.constant_restrict {α : Type} (form : LinearForm α) (keep : Symbol → Bool) :
    (form.restrict keep).constant = form.constant := by
  unfold restrict
  generalize form.terms.filter _ = terms
  induction terms generalizing form with
  | nil => rfl
  | cons first rest inductionHypothesis => exact inductionHypothesis (form.without first.1)

namespace Tableau

variable {α : Type} [Scalar α] {kinds : Nat → Symbol.Kind} {inside : Nat → Prop}
  {tableau other : Tableau α} {symbol entering leaving marker : Symbol} {form : LinearForm α}
  {markers : Markers}

/-- The change from one tableau to another touches whatever external value it moves. -/
abbrev Reports (kinds : Nat → Symbol.Kind) (tableau other : Tableau α) : Prop :=
  tableau.Tells kinds (fun _ => False) other

theorem reports_discard (proper : symbol.Proper kinds) :
    tableau.Reports kinds (tableau.discard symbol) :=
  tells_discard proper fun _ => id

theorem reports_put (proper : symbol.Proper kinds) (form : LinearForm α) :
    tableau.Reports kinds (tableau.put symbol form) :=
  tells_put proper id form

/-- The objective is nobody's value. -/
theorem reports_with_objective (tableau : Tableau α) (objective : LinearForm α) :
    tableau.Reports kinds { tableau with objective } := by
  constructor
  · exact fun _ => id
  · exact fun _ _ _ => Or.inl rfl
  · exact fun _ => Or.inl

theorem reports_forget (tableau : Tableau α) (symbol : Symbol) :
    tableau.Reports kinds (tableau.forget symbol) :=
  tells_forget tableau symbol

theorem reports_foldl_discard {symbols : List Symbol}
    (proper : ∀ symbol ∈ symbols, symbol.Proper kinds) :
    tableau.Reports kinds (symbols.foldl discard tableau) := by
  induction symbols generalizing tableau with
  | nil => exact Tells.refl tableau
  | cons first rest inductionHypothesis =>
      obtain ⟨here, later⟩ := List.forall_mem_cons.mp proper
      exact (reports_discard here).trans (inductionHypothesis later)

namespace Ordered

variable (ordered : tableau.Ordered kinds inside)

include ordered

theorem reports_pivot (proper : entering.Proper kinds) (form : LinearForm α) (leaving : Symbol) :
    tableau.Reports kinds (tableau.pivot form entering leaving) :=
  tells_pivot ordered.proper_basic (heeds_nobody tableau) proper id form leaving

/-- Exchanging a basic symbol for a free one. -/
theorem reports_exchange (member : (leaving, form) ∈ tableau.equations)
    (free : tableau.FreeWithin kinds inside entering) :
    tableau.Reports kinds ((tableau.discard leaving).pivot form entering leaving) := by
  have discarded : tableau.Reports kinds (tableau.discard leaving) :=
    reports_discard (ordered.proper_basic _ member)
  exact discarded.trans ((ordered.discard member).reports_pivot free.1.1 form leaving)

theorem reports_dropMarker (proper : marker.id ≠ 0 → marker.Proper kinds) :
    tableau.Reports kinds (tableau.dropMarker marker) := by
  unfold Tableau.dropMarker
  rw [take?_eq]
  cases found : tableau.form? marker with
  | some form =>
      obtain ⟨row, member, same, _⟩ := (tableau.form?_eq_some_iff marker form).mp found
      exact reports_discard (proper (same ▸ (ordered.proper_basic row member).1))
  | none =>
      cases chosen : tableau.markerLeaving? marker with
      | none => exact Tells.refl tableau
      | some leaving =>
          obtain ⟨form, _, member, _⟩ := exists_row_of_markerLeaving? chosen
          have discarded : tableau.Reports kinds (tableau.discard leaving) :=
            reports_discard (ordered.proper_basic _ member)
          simp only [Option.map_none, Option.bind_some, take?_eq, form?_of_mem member,
            Option.map_some]
          exact discarded.trans (tells_eliminate (ordered.discard member).proper_basic
            (heeds_nobody _) marker _)

/-- The rows that remain keep their constants. -/
theorem reports_truncate (mark : Nat) : tableau.Reports kinds (tableau.truncate mark) := by
  apply (reports_foldl_discard (ordered.proper_above mark)).trans
  constructor
  · exact fun _ => id
  · intro symbol _ _
    left
    unfold Tableau.truncate value form?
    rw [SlotTable.get?_map, Option.map_map]
    cases (List.foldl Tableau.discard tableau _).rows.get? symbol with
    | none => rfl
    | some row => exact row.form.constant_restrict _
  · exact fun _ => Or.inl

/-- Moving a target along markers, which are no variables. -/
theorem reports_shift (internal : markers.marker.id ≠ 0 → kinds markers.marker.id ≠ .external)
    (internal_other : markers.other.id ≠ 0 → kinds markers.other.id ≠ .external) (amount : α) :
    tableau.Reports kinds (tableau.shift markers amount) := by
  have present : ∀ symbol : Symbol, tableau.form? symbol ≠ none → symbol.id ≠ 0 := by
    intro symbol basic absent
    apply basic
    rw [form?_eq_none_iff]
    exact fun row member same => (ordered.proper_basic row member).1 (same.trans absent)
  rcases tableau.shift_cases markers amount with ⟨basic, moved⟩ | ⟨basic, moved⟩ | ⟨_, moved⟩
  · rw [moved]
    exact tells_raise (internal (present _ basic)) basic _
  · rw [moved]
    exact tells_raise (internal_other (present _ basic)) basic _
  · rw [moved]
    exact tells_advance ordered.proper_basic (heeds_nobody tableau) _ _

end Ordered

theorem Descent.Ordered.reports_step {descent following : Descent α}
    (ordered : descent.Ordered kinds inside) (moves : descent.step = .next following) :
    descent.tableau.Reports kinds following.tableau := by
  obtain ⟨entering, leaving, form, chosen, left, found, rfl⟩ := of_step_eq_next moves
  obtain ⟨amount, in_goal, _⟩ := LinearForm.of_entering?_eq_some chosen
  obtain ⟨row, _, member, _⟩ := exists_row_of_leaving? left
  obtain rfl : row = form := form_eq_of_form? member found
  exact ordered.tableau.reports_exchange member (ordered.over_goal _ in_goal)

theorem Ordered.reports_descend (ordered : tableau.Ordered kinds inside)
    {goal? : Option (LinearForm α)}
    (written : ∀ goal, goal? = some goal → goal.Over (tableau.FreeWithin kinds inside))
    (steps : Nat) : tableau.Reports kinds (tableau.descend steps goal?).state.tableau := by
  have keeps : ∀ now following : Descent α,
      now.Ordered kinds inside ∧ tableau.Reports kinds now.tableau →
        now.step = .next following →
          following.Ordered kinds inside ∧ tableau.Reports kinds following.tableau := by
    rintro now following ⟨ordered_now, reports⟩ moves
    exact ⟨ordered_now.step moves, reports.trans (ordered_now.reports_step moves)⟩
  exact (iterate_invariant keeps steps _ ⟨⟨ordered, written⟩, Tells.refl tableau⟩).2

theorem Ordered.reports_repairStep (ordered : tableau.Ordered kinds inside)
    (moves : tableau.repairStep = .next other) : tableau.Reports kinds other := by
  have calmed : ∀ leaving waiting, tableau.Reports kinds (tableau.calmed leaving waiting) :=
    fun leaving waiting => Tells.of_alike (tableau.alike_calmed leaving waiting) rfl
  cases serves_of_repairStep moves with
  | gone leaving waiting _ _ result =>
      rw [result]
      exact Tells.of_alike ⟨rfl, rfl⟩ rfl
  | calm leaving waiting _ _ _ _ result =>
      rw [result]
      exact calmed leaving waiting
  | lifted leaving waiting form queue found _ entering chosen result =>
      have calm := ordered.calmed queue
      have member := ordered.mem_calmed queue found
      obtain ⟨coefficient, mentioned⟩ := exists_term_of_lifting? chosen
      rw [result]
      exact (calmed leaving waiting).trans
        (calm.reports_exchange member (calm.written _ member _ mentioned))
  | stuck leaving waiting form queue found _ _ result =>
      have proper := (ordered.calmed queue).proper_basic _ (ordered.mem_calmed queue found)
      rw [result]
      exact (calmed leaving waiting).trans
        ((reports_discard proper).trans (reports_put proper form))

theorem Ordered.reports_repair (ordered : tableau.Ordered kinds inside) (steps : Nat) :
    tableau.Reports kinds (tableau.repair steps).state := by
  have keeps : ∀ now following : Tableau α,
      now.Ordered kinds inside ∧ tableau.Reports kinds now → now.repairStep = .next following →
        following.Ordered kinds inside ∧ tableau.Reports kinds following := by
    rintro now following ⟨ordered_now, reports⟩ moves
    exact ⟨ordered_now.repairStep moves, reports.trans (ordered_now.reports_repairStep moves)⟩
  exact (iterate_invariant keeps steps tableau ⟨ordered, Tells.refl tableau⟩).2

end Tableau

end SoftSimplex
