import SoftSimplex.Proofs.Satisfaction
import SoftSimplex.Proofs.Tableau.Tells

/-!
# Stages of a tableau

Between two operations a tableau means and prices its ledger, is feasible, and has its objective
at the least value. Every operation leaves this state in one way or another and comes back to it
by the primal and the dual phase. How much of it holds depends on the history: without nonnegative
weights nothing bounds the objective, and once a live required equality has been taken out, rows
of dummies need not be at zero.
-/

namespace SoftSimplex

/-- What a history has kept to. -/
structure Discipline where
  /-- No live required equality was taken out of the tableau. -/
  steady : Bool
  /-- No strength had a negative weight. -/
  priced : Bool

/-- No entry speaks of a symbol above the mark. -/
def Ledger.Below (ledger : Ledger) (mark : Nat) : Prop :=
  ∀ entry ∈ ledger, (entry.expression.Over fun symbol => symbol.id ≤ mark) ∧
    ∀ id, entry.Owns id → id ≤ mark

theorem Ledger.Below.avoids {ledger : Ledger} {mark id : Nat} (below : ledger.Below mark)
    (above : mark < id) {entry : Constraint Rat} (member : entry ∈ ledger) : entry.Avoids id := by
  obtain ⟨spanned, owned⟩ := below entry member
  refine ⟨spanned.mono fun symbol low same => ?_, fun owns => absurd (owned id owns) (by omega)⟩
  omega

namespace Tableau

variable {kinds : Nat → Symbol.Kind} {discipline : Discipline} {tableau other : Tableau Rat}
  {ledger priced : Ledger} {constraint : Constraint Rat}

/-- A regular tableau that means one ledger and prices another. -/
structure Stands (kinds : Nat → Symbol.Kind) (ledger priced : Ledger)
    (tableau : Tableau Rat) : Prop where
  regular : tableau.Regular kinds
  tidy : tableau.Tidy kinds
  means : tableau.Means ledger
  prices : tableau.Prices priced

/-- No row is where it must not be, as far as the discipline promises it. -/
structure Upright (discipline : Discipline) (tableau : Tableau Rat) : Prop where
  grounded : discipline.steady → tableau.Grounded fun _ => True
  feasible : discipline.steady → discipline.priced → tableau.Feasible

/-- No row waits, and the objective is at its least, as far as the discipline promises it. -/
structure Restful (discipline : Discipline) (tableau : Tableau Rat) : Prop
    extends Upright discipline tableau where
  idle : tableau.agenda.repairs = []
  lowest : discipline.steady → discipline.priced → tableau.objective.Lowest

theorem restful_empty (discipline : Discipline) : (empty : Tableau Rat).Restful discipline where
  grounded _ _ member := absurd member List.not_mem_nil
  feasible _ _ _ member := absurd member List.not_mem_nil
  idle := rfl
  lowest _ _ _ member := absurd member List.not_mem_nil

theorem Upright.alike (upright : tableau.Upright discipline) (alike : tableau.Alike other) :
    other.Upright discipline :=
  ⟨fun steady => (upright.grounded steady).alike alike,
    fun steady priced => (upright.feasible steady priced).alike alike⟩

/-- The tableau with nothing touched. -/
def told {α : Type} (tableau : Tableau α) : Tableau α :=
  { tableau with agenda := { tableau.agenda with touched := [] } }

theorem alike_told {α : Type} (tableau : Tableau α) : tableau.Alike tableau.told := ⟨rfl, rfl⟩

theorem Tidy.told (tidy : tableau.Tidy kinds) : tableau.told.Tidy kinds :=
  ⟨tidy.queue, tidy.flagged⟩

theorem Restful.told (restful : tableau.Restful discipline) : tableau.told.Restful discipline :=
  ⟨restful.toUpright.alike tableau.alike_told, restful.idle, restful.lowest⟩

namespace Stands

theorem empty (kinds : Nat → Symbol.Kind) : (Tableau.empty : Tableau Rat).Stands kinds [] [] where
  regular := Regular.empty kinds
  tidy := ⟨fun _ member => absurd member List.not_mem_nil,
    fun _ member => absurd member List.not_mem_nil⟩
  means := means_empty
  prices := prices_empty

theorem told (stands : tableau.Stands kinds ledger priced) :
    tableau.told.Stands kinds ledger priced where
  regular := tableau.alike_told.regular stands.regular
  tidy := stands.tidy.told
  means := tableau.alike_told.means stands.means
  prices := tableau.alike_told.prices stands.prices

theorem perm (stands : tableau.Stands kinds ledger priced) {ledger' priced' : Ledger}
    (perm : ledger.Perm ledger') (perm' : priced.Perm priced') :
    tableau.Stands kinds ledger' priced' :=
  ⟨stands.regular, stands.tidy, stands.means.perm perm, stands.prices.perm perm'⟩

theorem equivalent (stands : tableau.Stands kinds ledger priced)
    (equivalent : tableau.Equivalent kinds other) (tidy : other.Tidy kinds) :
    other.Stands kinds ledger priced :=
  ⟨equivalent.regular, tidy, equivalent.means stands.means, equivalent.prices stands.prices⟩

/-- What the ledger does not speak of does not occur. -/
theorem foreign_above (stands : tableau.Stands kinds ledger priced) {mark : Nat}
    (below : ledger.Below mark) (priced_below : priced.Below mark) {symbol : Symbol}
    (above : mark < symbol.id) :
    tableau.Foreign symbol ∧ tableau.objective.mentions symbol = false := by
  have proper : symbol.id ≠ 0 := by omega
  have indifferent := stands.means.indifferent proper fun entry member =>
    below.avoids above member
  refine ⟨stands.regular.foreign_of_indifferent proper indifferent, ?_⟩
  exact stands.regular.objective_mentions_eq_false indifferent stands.prices proper
    (fun entry member => (priced_below.avoids above member).2) symbol.kind

/-- Kinds above the mark may change. -/
theorem rekind (stands : tableau.Stands kinds ledger priced) {mark : Nat}
    (below : ledger.Below mark) (priced_below : priced.Below mark) {kinds' : Nat → Symbol.Kind}
    (agree : ∀ id, id ≠ 0 → id ≤ mark → kinds' id = kinds id)
    (idle : tableau.agenda.repairs = []) : tableau.Stands kinds' ledger priced := by
  refine ⟨stands.regular.rekind fun symbol proper => ?_, ?_, stands.means, stands.prices⟩
  · rcases Nat.lt_or_ge mark symbol.id with above | low
    · exact Or.inr (stands.foreign_above below priced_below above)
    · exact Or.inl (agree symbol.id proper.1 low)
  · refine ⟨fun symbol waits => ?_, stands.tidy.flagged⟩
    rw [idle] at waits
    exact absurd waits List.not_mem_nil

/-- There is nothing to be truncated. -/
theorem truncate (stands : tableau.Stands kinds ledger priced) {mark : Nat}
    (below : ledger.Below mark) (priced_below : priced.Below mark) :
    tableau.Alike (tableau.truncate mark) ∧ (tableau.truncate mark).Stands kinds ledger priced ∧
      (tableau.truncate mark).agenda = tableau.agenda := by
  have low : ∀ form : LinearForm Rat, (∀ symbol : Symbol, mark < symbol.id →
      form.mentions symbol = false) → form.Over fun symbol => symbol.id ≤ mark := by
    intro form unmentioned term member
    by_contra above
    have absent := unmentioned term.1 (not_le.mp above)
    rw [LinearForm.mentions_of_mem member] at absent
    exact Bool.noConfusion absent
  have filed : ∀ row ∈ tableau.equations, row.1.id ≤ mark := by
    intro row member
    by_contra above
    exact ((stands.foreign_above below priced_below (not_le.mp above)).1 row member).1 rfl
  have alike : tableau.Alike (tableau.truncate mark) := by
    refine Tableau.alike_truncate (fun row member => ⟨filed row member, ?_⟩) ?_
    · exact low row.2 fun symbol above =>
        ((stands.foreign_above below priced_below above).1 row member).2
    · exact low _ fun symbol above => (stands.foreign_above below priced_below above).2
  obtain ⟨tidy, agenda⟩ := stands.tidy.truncate filed
  exact ⟨alike, stands.equivalent (alike.equivalent stands.regular) tidy, agenda⟩

/-- The objective of a tableau is determined by its equations and by what it prices. -/
theorem lowest_congr (stands : tableau.Stands kinds ledger priced)
    (stands' : other.Stands kinds ledger priced) (same : other.equations = tableau.equations)
    (lowest : tableau.objective.Lowest) : other.objective.Lowest := by
  obtain ⟨drift, is_price⟩ := stands.prices
  obtain ⟨drift', is_price'⟩ := stands'.prices
  have difference : ∀ given, other.objective.eval given =
      tableau.objective.eval given + (drift' - drift) := by
    intro given
    have solves := stands.regular.solves_complete given
    have solves' : Solves (tableau.complete given) other := by
      rw [Solves, same]
      exact solves
    have settled : tableau.Settled kinds other.objective := by
      have alike : other.Alike { tableau with objective := other.objective } := ⟨same.symm, rfl⟩
      have moved := (alike.settled_iff _).mpr stands'.regular.objective_settled
      exact ⟨moved.free, moved.reduced⟩
    rw [← settled.eval_complete, ← stands.regular.objective_settled.eval_complete given,
      is_price' _ solves', is_price _ solves]
    ring
  intro term member not_dummy
  have proper := stands'.regular.objective_settled.proper term member
  have coefficient : term.2 = tableau.objective.coefficient term.1 := by
    rw [← LinearForm.coefficient_of_mem member, LinearForm.coefficient_eq _ proper.1,
      LinearForm.coefficient_eq _ proper.1, difference, ← LinearForm.eval_zero other.objective,
      difference, LinearForm.eval_zero]
    ring
  rw [coefficient]
  cases mentioned : tableau.objective.mentions term.1 with
  | false => rw [LinearForm.coefficient_of_not_mentions mentioned]
  | true =>
      obtain ⟨filed, inside, same_id, is_coefficient⟩ :=
        LinearForm.exists_term_of_mentions mentioned
      have same_symbol :=
        (stands.regular.objective_settled.proper filed inside).eq_of_id_eq proper same_id
      rw [← is_coefficient]
      exact lowest filed inside (by rw [same_symbol]; exact not_dummy)

/-- Lowering the objective of an upright tableau. -/
theorem descend (stands : tableau.Stands kinds ledger ledger)
    (ledger_regular : Ledger.Regular kinds ledger) (weights : discipline.priced → ledger.Priced)
    (upright : tableau.Upright discipline) {steps : Nat} {reached : Bool}
    (finished : (tableau.descend steps none).result? = some reached) :
    (tableau.descend steps none).state.tableau.Stands kinds ledger ledger ∧
      (tableau.descend steps none).state.tableau.Upright discipline ∧
        (discipline.steady → discipline.priced →
          (tableau.descend steps none).state.tableau.objective.Lowest) := by
  have settled : tableau.Settled kinds ((none : Option (LinearForm Rat)).getD
      tableau.objective) := stands.regular.objective_settled
  have confined : ((none : Option (LinearForm Rat)).getD tableau.objective).Over
      fun symbol => symbol.isExternal = false := stands.regular.objective_confined
  have sound := descend_objective_sound stands.regular stands.tidy steps
  refine ⟨stands.equivalent sound.equivalent sound.tidy, ⟨fun steady => ?_, fun steady is_priced =>
    ?_⟩, fun steady is_priced => ?_⟩
  · exact descend_grounded stands.regular stands.tidy settled confined
      (upright.grounded steady) steps
  · exact descend_feasible stands.regular stands.tidy settled confined
      (upright.feasible steady is_priced) steps
  · obtain ⟨bound, bounded⟩ := stands.prices.exists_bound ledger_regular (weights is_priced)
    obtain ⟨_, lowest⟩ := descend_lowest stands.regular stands.tidy settled
      confined (upright.feasible steady is_priced) (upright.grounded steady) bounded finished
    have no_goal : (tableau.descend steps none).state.goal? = none :=
      Option.isNone_iff_eq_none.mp (Option.isSome_eq_false_iff.mp sound.goal_isSome)
    rw [Descent.goal, no_goal] at lowest
    exact lowest

/-- Repairing the rows of a tableau whose objective is at its least. -/
theorem repair (stands : tableau.Stands kinds ledger ledger)
    (ledger_regular : Ledger.Regular kinds ledger)
    (grounded : discipline.steady → tableau.Grounded fun _ => True)
    (ready : discipline.steady → discipline.priced →
      tableau.objective.Lowest ∧ tableau.Alert ∧ ∃ given, ledger.Met given) {steps : Nat}
    (finished : (tableau.repair steps).result? = some ()) :
    (tableau.repair steps).state.Stands kinds ledger ledger ∧
      (tableau.repair steps).state.Restful discipline := by
  obtain ⟨equivalent, tidy, idle⟩ := repair_sound stands.regular stands.tidy steps
  have optimal : discipline.steady → discipline.priced →
      (tableau.repair steps).state.Feasible ∧ (tableau.repair steps).state.objective.Lowest := by
    intro steady is_priced
    obtain ⟨lowest, alert, given, met⟩ := ready steady is_priced
    obtain ⟨point, admissible, _, balanced, _⟩ := ledger_regular.exists_extension met
    obtain ⟨feasible, _, lowest'⟩ := repair_optimal stands.regular stands.tidy alert
      (grounded steady) lowest admissible ((stands.means point).mpr balanced) finished
    exact ⟨feasible, lowest'⟩
  refine ⟨stands.equivalent equivalent tidy, ⟨fun steady => ?_, fun steady is_priced => ?_⟩,
    idle finished, fun steady is_priced => ?_⟩
  · exact repair_grounded stands.regular stands.tidy (grounded steady) steps
  · exact (optimal steady is_priced).1
  · exact (optimal steady is_priced).2

/-- An upright tableau with the objective at its least is ready for repair. -/
theorem ready (stands : tableau.Stands kinds ledger ledger)
    (ledger_regular : Ledger.Regular kinds ledger) (upright : tableau.Upright discipline)
    (steady : discipline.steady) (is_priced : discipline.priced)
    (lowest : tableau.objective.Lowest) :
    tableau.objective.Lowest ∧ tableau.Alert ∧ ∃ given, ledger.Met given :=
  ⟨lowest, (upright.feasible steady is_priced).alert (upright.grounded steady) stands.regular,
    _, stands.means.met stands.regular ledger_regular (upright.feasible steady is_priced)
      (upright.grounded steady)⟩

/-- The price of a constraint is taken out of the objective, and no row changes. -/
theorem strip (stands : tableau.Stands kinds ledger (constraint :: priced))
    (fit : constraint.Fit kinds) :
    ((tableau.charge constraint.markers.errors
      (-constraint.strength.weight)).settleObjective).Stands kinds ledger priced := by
  refine ⟨(stands.regular.charge fit.internal_errors _).settleObjective, ?_, ?_,
    stands.prices.refund.settleObjective⟩
  · unfold settleObjective
    split <;> exact ⟨stands.tidy.queue, stands.tidy.flagged⟩
  · intro assignment
    rw [← stands.means assignment]
    unfold Solves
    rw [equations_settleObjective]
    rfl

/-- Dropping the marker of a constraint without a price leaves a regular tableau. -/
theorem regular_dropMarker (stands : tableau.Stands kinds (constraint :: ledger) ledger)
    (ledger_regular : Ledger.Regular kinds (constraint :: ledger)) :
    (tableau.dropMarker constraint.markers.marker).Regular kinds :=
  stands.regular.dropMarker ledger_regular.head.markers.marker_proper ledger_regular.tail
    stands.prices fun _ member =>
      ledger_regular.not_owns member ledger_regular.head.owns_marker

/-- A constraint without a price leaves with its marker. -/
theorem dropMarker (stands : tableau.Stands kinds (constraint :: ledger) ledger)
    (ledger_regular : Ledger.Regular kinds (constraint :: ledger))
    (grounded : discipline.steady →
      tableau.Grounded fun symbol => symbol.id ≠ constraint.markers.marker.id)
    (poised : discipline.steady → discipline.priced →
      ∃ point, tableau.Poised kinds constraint.markers.marker point) :
    (tableau.dropMarker constraint.markers.marker).Stands kinds ledger ledger ∧
      (tableau.dropMarker constraint.markers.marker).Upright discipline := by
  have proper := ledger_regular.head.markers.marker_proper
  have unowned : ∀ entry ∈ ledger, ¬ entry.Owns constraint.markers.marker.id :=
    fun entry member => ledger_regular.not_owns member ledger_regular.head.owns_marker
  refine ⟨⟨?_, stands.tidy.dropMarker stands.regular _, ?_, ?_⟩, fun steady => ?_,
    fun steady is_priced => ?_⟩
  · exact stands.regular_dropMarker ledger_regular
  · exact stands.means.dropMarker stands.regular ledger_regular
  · exact stands.prices.dropMarker stands.regular proper unowned
  · exact (grounded steady).dropMarker.mono fun _ _ => trivial
  · obtain ⟨point, is_poised⟩ := poised steady is_priced
    exact is_poised.feasible_dropMarker stands.regular proper (grounded steady)

end Stands

end Tableau

end SoftSimplex
