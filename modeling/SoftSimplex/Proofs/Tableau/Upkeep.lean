import SoftSimplex.Proofs.Tableau.Artificial
import SoftSimplex.Proofs.Tableau.Optimality
import SoftSimplex.Proofs.Tableau.Shift

/-!
# Keeping a tableau feasible

What entering, taking out and moving constraints does to feasibility. A new row is not negative
and leaves the rows of other symbols than external ones alone. A dropped marker takes the tightest
row along, and the rest stays feasible if some number for the marker, with all other free symbols
at zero, was admissible.
-/

namespace SoftSimplex.Tableau

variable {kinds : Nat → Symbol.Kind} {tableau base other : Tableau Rat}
  {allowed : Symbol → Prop}

/-- Nothing is below zero in a feasible and grounded tableau, rows of external symbols apart. -/
theorem Feasible.alert (feasible : tableau.Feasible) (grounded : tableau.Grounded allowed)
    (regular : tableau.Regular kinds) : tableau.Alert := by
  intro entry member internal negative
  have row : (entry.1, entry.2.form) ∈ tableau.equations := List.mem_map_of_mem member
  exfalso
  by_cases is_dummy : entry.1.isDummy = true
  · have at_zero := (grounded _ row is_dummy).1
    exact negative.ne at_zero
  · rw [Bool.not_eq_true] at is_dummy
    have restricted := Symbol.isRestricted_of_internal (regular.proper _ row).1 internal is_dummy
    exact absurd negative (not_lt.mpr (feasible _ row restricted))

theorem Feasible.alike (feasible : tableau.Feasible) (alike : tableau.Alike other) :
    other.Feasible :=
  fun row member => feasible row (alike.equations ▸ member)

theorem Feasible.discard (feasible : tableau.Feasible) (symbol : Symbol) :
    (tableau.discard symbol).Feasible :=
  fun row member => feasible row ((tableau.mem_equations_discard_iff symbol row).mp member).1

theorem Feasible.forget (feasible : tableau.Feasible) (symbol : Symbol) :
    (tableau.forget symbol).Feasible := by
  intro row member restricted
  rw [equations_forget] at member
  obtain ⟨before, inside, rfl⟩ := List.mem_map.mp member
  exact feasible before inside restricted

theorem Grounded.forget (grounded : tableau.Grounded allowed) (symbol : Symbol) :
    (tableau.forget symbol).Grounded allowed := by
  intro row member is_dummy
  rw [equations_forget] at member
  obtain ⟨before, inside, rfl⟩ := List.mem_map.mp member
  obtain ⟨constant, spanned⟩ := grounded before inside is_dummy
  exact ⟨constant, (spanned.without symbol).mono fun _ both => both.1⟩

/-- The rows of symbols other than external ones do not mention a symbol. -/
def Untouched (tableau : Tableau Rat) (symbol : Symbol) : Prop :=
  ∀ row ∈ tableau.equations, row.1.isExternal = false → row.2.mentions symbol = false

theorem Foreign.untouched {symbol : Symbol} (foreign : tableau.Foreign symbol) :
    tableau.Untouched symbol :=
  fun row member _ => (foreign row member).2

namespace Exchange

variable {form : LinearForm Rat} {entering leaving : Symbol}

/-- An entering symbol that only rows of external symbols mention leaves the others alone. -/
theorem feasible_pivot (exchange : base.Exchange kinds form entering leaving)
    (untouched : base.Untouched entering) (feasible : base.Feasible)
    (new : entering.isRestricted = true → 0 ≤ (form.isolate entering leaving).constant) :
    (base.pivot form entering leaving).Feasible := by
  intro row member restricted
  rcases mem_equations_pivot exchange.entering_free member with rfl | ⟨before, inside, rfl⟩
  · exact new restricted
  · have internal := Symbol.isExternal_eq_false_of_isRestricted restricted
    dsimp only at internal restricted ⊢
    rw [LinearForm.substitute_of_not_mentions (untouched before inside internal)]
    exact feasible before inside restricted

theorem grounded_pivot (exchange : base.Exchange kinds form entering leaving)
    (untouched : base.Untouched entering) (grounded : base.Grounded allowed)
    (new : entering.isDummy = true → (form.isolate entering leaving).constant = 0 ∧
      (form.isolate entering leaving).Over fun symbol =>
        symbol.isDummy = true ∧ allowed symbol) :
    (base.pivot form entering leaving).Grounded allowed := by
  intro row member is_dummy
  rcases mem_equations_pivot exchange.entering_free member with rfl | ⟨before, inside, rfl⟩
  · exact new is_dummy
  · have internal := Symbol.isExternal_eq_false_of_isDummy is_dummy
    dsimp only at internal is_dummy ⊢
    rw [LinearForm.substitute_of_not_mentions (untouched before inside internal)]
    exact grounded before inside is_dummy

/-- A row at zero can be exchanged without moving any constant. -/
theorem feasible_degenerate (exchange : base.Exchange kinds form entering leaving)
    (feasible : base.Feasible) (at_zero : form.constant = 0) :
    (base.pivot form entering leaving).Feasible := by
  have constant : (form.isolate entering leaving).constant = 0 := by
    rw [exchange.constant_definition, at_zero, neg_zero, zero_div]
  intro row member restricted
  rcases mem_equations_pivot exchange.entering_free member with rfl | ⟨before, inside, rfl⟩
  · exact constant.ge
  · rw [LinearForm.constant_substitute, constant, mul_zero, add_zero]
    exact feasible before inside restricted

end Exchange

/-- A solution in which all free symbols but a marker are zero and all restricted symbols but the
marker are nonnegative. -/
structure Poised (kinds : Nat → Symbol.Kind) (tableau : Tableau Rat) (marker : Symbol)
    (point : Assignment) : Prop where
  solves : Solves point tableau
  free : ∀ symbol, tableau.Free kinds symbol → symbol.id ≠ marker.id → point symbol.id = 0
  restricted : ∀ symbol : Symbol, symbol.Proper kinds → symbol.isRestricted = true →
    symbol.id ≠ marker.id → 0 ≤ point symbol.id

theorem Poised.alike {marker : Symbol} {point : Assignment}
    (poised : tableau.Poised kinds marker point) (alike : tableau.Alike other) :
    other.Poised kinds marker point where
  solves := (alike.solves_iff point).mpr poised.solves
  free symbol free := poised.free symbol ⟨free.1, (alike.form? symbol).symm.trans free.2⟩
  restricted := poised.restricted

/-- In a poised solution a form has the value it has with all symbols but the marker at zero. -/
theorem Poised.eval_eq {marker : Symbol} {point : Assignment}
    (poised : tableau.Poised kinds marker point) (proper : marker.Proper kinds)
    {form : LinearForm Rat} (settled : tableau.Settled kinds form) :
    form.eval point = form.constant + form.coefficient marker * point marker.id := by
  have same : form.eval point = form.eval (Assignment.zero.set marker.id (point marker.id)) := by
    refine LinearForm.eval_congr settled.free fun symbol free => ?_
    rw [Symbol.under_of_ne_zero free.1.1, Symbol.under_of_ne_zero free.1.1]
    by_cases is_marker : symbol.id = marker.id
    · rw [is_marker, Assignment.set_same]
    · rw [Assignment.set_of_ne _ is_marker, poised.free symbol free is_marker]
      rfl
  rw [same, form.eval_set proper.1, LinearForm.eval_zero]
  simp [Assignment.zero]

/-- The solved values of a feasible tableau are poised for any marker. -/
theorem Feasible.poised (feasible : tableau.Feasible) (regular : tableau.Regular kinds)
    (marker : Symbol) : tableau.Poised kinds marker (tableau.complete Assignment.zero) where
  solves := regular.solves_complete _
  free symbol free _ := complete_of_free free.2 _
  restricted symbol proper restricted _ := by
    cases found : tableau.form? symbol with
    | none => rw [complete_of_free found]; rfl
    | some form =>
        rw [complete_of_form? found, LinearForm.eval_zero]
        exact feasible _ (regular.mem_equations proper found) restricted

/-- What the row of a restricted symbol says at a poised solution. -/
theorem Poised.row_nonneg {marker : Symbol} {point : Assignment}
    (poised : tableau.Poised kinds marker point) (regular : tableau.Regular kinds)
    (proper : marker.Proper kinds) {row : Symbol × LinearForm Rat}
    (member : row ∈ tableau.equations) (restricted : row.1.isRestricted = true)
    (apart : row.1.id ≠ marker.id) :
    0 ≤ row.2.constant + row.2.coefficient marker * point marker.id := by
  have row_proper := regular.proper row member
  rw [← poised.eval_eq proper (regular.settled row member), ← poised.solves row member,
    Symbol.under_of_ne_zero row_proper.1]
  exact poised.restricted row.1 row_proper restricted apart

/-- A row of a dummy does not mention the marker, so an internal row that does is restricted. -/
theorem Poised.leaving_nonneg {marker leaving : Symbol} {point : Assignment}
    (poised : tableau.Poised kinds marker point) (regular : tableau.Regular kinds)
    (proper : marker.Proper kinds)
    (grounded : tableau.Grounded fun symbol => symbol.id ≠ marker.id)
    {form : LinearForm Rat} {coefficient : Rat} (member : (leaving, form) ∈ tableau.equations)
    (apart : leaving.id ≠ marker.id) (found : form.coefficient? marker = some coefficient)
    (internal : leaving.isExternal = false) :
    0 ≤ form.constant + coefficient * point marker.id := by
  have not_dummy : leaving.isDummy = false := by
    by_contra is_dummy
    rw [Bool.not_eq_false] at is_dummy
    obtain ⟨term, in_form, same, _⟩ :=
      (form.coefficient?_eq_some_iff marker coefficient).mp found
    exact ((grounded _ member is_dummy).2 term in_form).2 same
  have restricted := Symbol.isRestricted_of_internal (regular.proper _ member).1 internal not_dummy
  have value := poised.row_nonneg regular proper member restricted apart
  rwa [LinearForm.coefficient_of_eq_some found] at value

/-- Giving up the tightest row keeps all restricted rows nonnegative. -/
theorem Poised.constant_nonneg {marker leaving : Symbol} {point : Assignment}
    (poised : tableau.Poised kinds marker point) (regular : tableau.Regular kinds)
    (proper : marker.Proper kinds) (free : tableau.form? marker = none)
    (grounded : tableau.Grounded fun symbol => symbol.id ≠ marker.id)
    {form : LinearForm Rat} {coefficient : Rat} (member : (leaving, form) ∈ tableau.equations)
    (found : form.coefficient? marker = some coefficient)
    (yields : tableau.Yields marker leaving form coefficient)
    {row : Symbol × LinearForm Rat} (inside : row ∈ tableau.equations)
    (restricted : row.1.isRestricted = true) :
    0 ≤ row.2.constant + row.2.coefficient marker * (-form.constant / coefficient) := by
  have apart : ∀ row ∈ tableau.equations, row.1.id ≠ marker.id :=
    (tableau.form?_eq_none_iff marker).mp free
  have internal := Symbol.isExternal_eq_false_of_isRestricted restricted
  have here := poised.row_nonneg regular proper inside restricted (apart row inside)
  have nonzero : coefficient ≠ 0 := by
    obtain ⟨term, in_form, _, rfl⟩ := (form.coefficient?_eq_some_iff marker coefficient).mp found
    exact (regular.settled _ member).reduced term in_form
  have leaving_nonneg : leaving.isExternal = false →
      0 ≤ form.constant + coefficient * point marker.id := fun leaving_internal =>
    poised.leaving_nonneg regular proper grounded member (apart _ member) found leaving_internal
  have mentions : row.2.coefficient marker ≠ 0 →
      row.2.coefficient? marker = some (row.2.coefficient marker) := fun occurs =>
    LinearForm.coefficient?_of_mentions (LinearForm.mentions_of_coefficient_ne_zero occurs)
  cases yields with
  | falling leaving_internal falls tightest =>
      have reach := leaving_nonneg leaving_internal
      have within : point marker.id ≤ -form.constant / coefficient := by
        rw [le_div_iff_of_neg falls]
        linarith
      rcases lt_or_ge (row.2.coefficient marker) 0 with row_falls | row_rises
      · have ratio := tightest row inside _ internal (mentions row_falls.ne) row_falls
        rw [le_div_iff_of_neg row_falls] at ratio
        linarith
      · have product := mul_le_mul_of_nonneg_left within row_rises
        linarith
  | rising leaving_internal rises all_rise tightest =>
      have positive : 0 < coefficient := lt_of_le_of_ne rises (Ne.symm nonzero)
      by_cases occurs : row.2.coefficient marker = 0
      · rw [occurs] at here ⊢
        linarith
      · have row_positive : 0 < row.2.coefficient marker :=
          lt_of_le_of_ne (all_rise row inside _ internal (mentions occurs)) (Ne.symm occurs)
        have ratio := tightest row inside _ internal (mentions occurs)
        rw [le_div_iff₀ row_positive] at ratio
        rw [neg_div]
        linarith
  | outside is_external aside =>
      rw [LinearForm.coefficient_of_not_mentions (aside row inside internal)] at here ⊢
      linarith

/-- Dropping a marker leaves a feasible tableau if there is a poised solution. -/
theorem Poised.feasible_dropMarker {marker : Symbol} {point : Assignment}
    (poised : tableau.Poised kinds marker point) (regular : tableau.Regular kinds)
    (proper : marker.Proper kinds)
    (grounded : tableau.Grounded fun symbol => symbol.id ≠ marker.id) :
    (tableau.dropMarker marker).Feasible := by
  cases tableau.dropping marker with
  | basic form found result =>
      rw [result]
      intro row member restricted
      obtain ⟨inside, apart⟩ := (tableau.mem_equations_discard_iff marker row).mp member
      have value := poised.row_nonneg regular proper inside restricted apart
      rw [LinearForm.coefficient_of_not_mentions
        ((regular.settled row inside).mentions_basic found)] at value
      linarith
  | exchanged leaving form coefficient free member found yields result =>
      rw [result]
      have exchange := regular.exchange_marker proper member found
      intro row inside restricted
      rw [equations_eliminate] at inside
      obtain ⟨before, kept, rfl⟩ := List.mem_map.mp inside
      rw [LinearForm.constant_substitute, exchange.constant_definition,
        LinearForm.coefficient_of_eq_some found]
      exact poised.constant_nonneg regular proper free grounded member found yields
        ((tableau.mem_equations_discard_iff leaving before).mp kept).1 restricted
  | absent foreign result =>
      rw [result]
      intro row member restricted
      obtain ⟨apart, unmentioned⟩ := foreign row member
      have value := poised.row_nonneg regular proper member restricted apart
      rw [LinearForm.coefficient_of_not_mentions unmentioned] at value
      linarith

/-- Dropping a marker that no row of a dummy mentions leaves the rows of dummies alone. -/
theorem Grounded.dropMarker {marker : Symbol}
    (grounded : tableau.Grounded fun symbol => symbol.id ≠ marker.id) :
    (tableau.dropMarker marker).Grounded fun symbol => symbol.id ≠ marker.id := by
  cases tableau.dropping marker with
  | basic form found result =>
      rw [result]
      exact grounded.discard marker
  | exchanged leaving form coefficient free member found yields result =>
      rw [result]
      refine (grounded.discard leaving).eliminate (fun row inside is_dummy => ?_) _
      rw [LinearForm.mentions_eq_false_iff]
      exact fun term in_row => ((grounded.discard leaving row inside is_dummy).2 term in_row).2
  | absent foreign result =>
      rw [result]
      exact grounded

/-- Rows of dummies stay at zero when a target moves. -/
theorem Grounded.shift {constraint : Constraint Rat} (grounded : tableau.Grounded allowed)
    (regular : tableau.Regular kinds) (elastic : Elastic kinds constraint) (amount : Rat) :
    (tableau.shift constraint.markers amount).Grounded allowed := by
  have marker_proper := elastic.fit.markers.marker_proper
  obtain ⟨other_proper, other_kind⟩ := elastic.fit.markers.other_proper elastic.soft
  have marker_not_dummy : constraint.markers.marker.isDummy = false := by
    simp [Symbol.isDummy, Symbol.isOf, elastic.marker_kind]
  have other_not_dummy : constraint.markers.other.isDummy = false := by
    simp [Symbol.isDummy, Symbol.isOf, other_kind]
  have raised : ∀ (symbol : Symbol) (amount : Rat), symbol.Proper kinds →
      symbol.isDummy = false → tableau.form? symbol ≠ none →
        (tableau.raise symbol amount).Grounded allowed := by
    intro symbol amount proper not_dummy basic row member is_dummy
    rw [equations_raise basic] at member
    obtain ⟨before, inside, rfl⟩ := List.mem_map.mp member
    have apart : before.1.id ≠ symbol.id := by
      intro same
      rw [(regular.proper before inside).eq_of_id_eq proper same, not_dummy] at is_dummy
      exact Bool.noConfusion is_dummy
    dsimp only
    rw [if_neg apart]
    exact grounded before inside is_dummy
  rcases tableau.shift_cases constraint.markers amount with
    ⟨basic, result⟩ | ⟨basic, result⟩ | ⟨_, result⟩
  · rw [result]
    exact raised _ _ marker_proper marker_not_dummy basic
  · rw [result]
    exact raised _ _ other_proper other_not_dummy basic
  · rw [result]
    intro row member is_dummy
    rw [equations_advance] at member
    obtain ⟨before, inside, rfl⟩ := List.mem_map.mp member
    obtain ⟨constant, spanned⟩ := grounded before inside is_dummy
    refine ⟨?_, spanned⟩
    dsimp only
    rw [LinearForm.coefficient_of_not_mentions (grounded.mentions_eq_false regular marker_proper
      marker_not_dummy inside is_dummy), constant, zero_mul, add_zero]

end SoftSimplex.Tableau
