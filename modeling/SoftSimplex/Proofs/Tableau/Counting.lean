import SoftSimplex.Proofs.Tableau.Stages

/-!
# Counting rows

A tableau has one row for every constraint that it stands for. The marker of such a constraint
cannot be foreign to the tableau: solutions would not depend on it, but the constraint is balanced
for a single number of it. So every marker that is dropped takes a row along, and the rows can be
counted off against the ledger. What the tableau asks to be made least does not matter here.
-/

namespace SoftSimplex.Tableau

variable {kinds : Nat → Symbol.Kind} {tableau : Tableau Rat} {ledger priced : Ledger}
  {constraint : Constraint Rat}

theorem rows_size_eq {α : Type} (tableau : Tableau α) :
    tableau.rows.size = tableau.equations.length := by
  rw [SlotTable.size_eq, equations, List.length_map]

/-- Discarding a row leaves all the others. -/
theorem length_equations_discard {α : Type} {tableau : Tableau α} {symbol : Symbol}
    {form : LinearForm α} (member : (symbol, form) ∈ tableau.equations) :
    tableau.equations.length = (tableau.discard symbol).equations.length + 1 := by
  rw [(equations_perm_cons_discard member).length_eq, List.length_cons]

/-- The marker of a constraint that the tableau stands for occurs in it. -/
theorem Means.not_foreign (means : tableau.Means ledger) (regular : tableau.Regular kinds)
    (member : constraint ∈ ledger) (fit : constraint.Fit kinds) :
    ¬ tableau.Foreign constraint.markers.marker := by
  intro foreign
  let solution := tableau.complete Assignment.zero
  have solves : Solves solution tableau := regular.solves_complete Assignment.zero
  have solves' := (foreign.solves_set_iff solution
    (solution constraint.markers.marker.id + 1)).mpr solves
  have balanced := (means _).mp solves' constraint member
  rw [fit.balance_set_marker, (means _).mp solves constraint member, add_sub_cancel_left, mul_one,
    zero_add] at balanced
  exact constraint.markers.sign_ne_zero balanced

/-- Dropping the marker of a constraint that the tableau stands for takes exactly one row along. -/
theorem Means.length_dropMarker (means : tableau.Means ledger) (regular : tableau.Regular kinds)
    (member : constraint ∈ ledger) (fit : constraint.Fit kinds) :
    tableau.equations.length =
      (tableau.dropMarker constraint.markers.marker).equations.length + 1 := by
  cases tableau.dropping constraint.markers.marker with
  | basic form found result =>
      rw [result]
      exact length_equations_discard (regular.mem_equations fit.markers.marker_proper found)
  | exchanged leaving form coefficient free inside found yields result =>
      rw [result, equations_eliminate, List.length_map]
      exact length_equations_discard inside
  | absent foreign result => exact absurd foreign (means.not_foreign regular member fit)

/-- A tableau that stands for nothing has no rows. -/
theorem Means.equations_eq_nil (means : tableau.Means []) (regular : tableau.Regular kinds) :
    tableau.equations = [] := by
  refine List.eq_nil_iff_forall_not_mem.mpr fun row member => ?_
  have indifferent := means.indifferent (regular.proper row member).1
    fun _ inside => absurd inside List.not_mem_nil
  have absent := regular.form?_of_indifferent indifferent
  rw [form?_of_mem member] at absent
  exact Option.some_ne_none _ absent

/-- Dropping marker after marker counts the rows off against the ledger, as long as nobody pays for
any symbol. -/
theorem Means.length_equations (means : tableau.Means ledger) (regular : tableau.Regular kinds)
    (free : tableau.Prices []) (entries : Ledger.Regular kinds ledger) :
    tableau.equations.length = ledger.length := by
  induction ledger generalizing tableau with
  | nil => rw [means.equations_eq_nil regular, List.length_nil, List.length_nil]
  | cons constraint rest inductionHypothesis =>
      have fit := entries.head
      have proper := fit.markers.marker_proper
      have unowned : ∀ entry ∈ ([] : Ledger), ¬ entry.Owns constraint.markers.marker.id :=
        fun _ member => absurd member List.not_mem_nil
      have counted := inductionHypothesis (means.dropMarker regular entries)
        (regular.dropMarker proper (.nil kinds) free unowned)
        (free.dropMarker regular proper unowned) entries.tail
      rw [means.length_dropMarker regular List.mem_cons_self fit, counted, List.length_cons]

/-- The tableau without anything to be made least. -/
def aimless (tableau : Tableau Rat) : Tableau Rat :=
  { tableau with objective := .ofConstant 0 }

theorem Regular.aimless (regular : tableau.Regular kinds) : tableau.aimless.Regular kinds where
  proper := regular.proper
  settled row member := ⟨(regular.settled row member).free, (regular.settled row member).reduced⟩
  confined := regular.confined
  objective_settled := ⟨LinearForm.Over.ofConstant 0, LinearForm.Reduced.ofConstant 0⟩
  objective_confined := LinearForm.Over.ofConstant 0

theorem prices_aimless (tableau : Tableau Rat) : tableau.aimless.Prices [] :=
  ⟨0, fun _ _ => by simp [Tableau.aimless]⟩

namespace Stands

/-- There are as many rows as constraints that the tableau stands for. -/
theorem rows_size (stands : tableau.Stands kinds ledger priced)
    (entries : Ledger.Regular kinds ledger) : tableau.rows.size = ledger.length := by
  have means : tableau.aimless.Means ledger := stands.means
  rw [rows_size_eq]
  exact means.length_equations stands.regular.aimless tableau.prices_aimless entries

/-- The marker of every constraint is basic or occurs in a row. -/
theorem marked (stands : tableau.Stands kinds ledger priced)
    (entries : Ledger.Regular kinds ledger) (member : constraint ∈ ledger) :
    tableau.isBasic constraint.markers.marker = true ∨
      ∃ row ∈ tableau.equations, row.2.mentions constraint.markers.marker = true := by
  by_contra neither
  rw [not_or, Bool.not_eq_true, isBasic_eq_false_iff, form?_eq_none_iff] at neither
  obtain ⟨apart, unmentioned⟩ := neither
  refine stands.means.not_foreign stands.regular member (entries.fit constraint member)
    fun row inside => ⟨apart row inside, ?_⟩
  exact Bool.eq_false_iff.mpr fun mentioned => unmentioned ⟨row, inside, mentioned⟩

/-- A tableau that neither stands for anything nor prices anything is empty. -/
theorem vacant (stands : tableau.Stands kinds [] []) :
    tableau.rows.size = 0 ∧ tableau.objective.terms = [] := by
  refine ⟨stands.rows_size (.nil kinds), List.eq_nil_iff_forall_not_mem.mpr fun term member => ?_⟩
  have proper := (stands.regular.objective_settled.free term member).1.1
  have indifferent := stands.means.indifferent proper
    fun _ inside => absurd inside List.not_mem_nil
  have unmentioned := stands.regular.objective_mentions_eq_false indifferent stands.prices proper
    (fun _ inside => absurd inside List.not_mem_nil) term.1.kind
  rw [LinearForm.mentions_of_mem member] at unmentioned
  exact Bool.noConfusion unmentioned

end Stands

end SoftSimplex.Tableau
