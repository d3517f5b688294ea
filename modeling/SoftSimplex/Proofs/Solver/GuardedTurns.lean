import SoftSimplex.Proofs.Solver.Edits
import SoftSimplex.Proofs.Solver.Journal
import SoftSimplex.Proofs.Tableau.Secluded

/-!
# Actions take guarded turns

In exact arithmetic a tableau that stands for a ledger is regular, before and after every turn, and
every turn is made to such a tableau. So the turns of an action are guarded, whatever its history
has kept to. What nobody pays for any more, but still stands in the rows, is where it matters: a
marker is taken out only after its price.
-/

namespace SoftSimplex

variable {kinds : Nat → Symbol.Kind} {offset : Nat → Rat} {ledger priced : Ledger}
  {solver before : Solver Rat} {key symbol : Symbol} {constraint : Constraint Rat}
  {form : LinearForm Rat} {empties : Prop}

/-- Nothing is promised that could fail. -/
theorem Tableau.upright_of_nothing (tableau : Tableau Rat) : tableau.Upright ⟨false, false⟩ :=
  ⟨nofun, nofun⟩

/-- Nothing is ignored that could be spoken of. -/
theorem Ledger.silent_of_nothing (kinds : Nat → Symbol.Kind) (ledger : Ledger) :
    ledger.Silent kinds fun _ => False :=
  fun _ => False.elim

namespace Action

open Solver Tableau

namespace Journal

theorem guarded_descend (bench : solver.Bench kinds ledger priced) :
    (descend none).Ensures (Turn.All (Turn.Guarded empties)) solver := by
  have regular := bench.stands.regular
  refine fun steps => regular.guarded_descendTurns bench.stands.tidy ?_ ?_ steps
  · exact regular.objective_settled
  · exact regular.objective_confined

theorem guarded_repair (bench : solver.Bench kinds ledger priced) :
    repair.Ensures (Turn.All (Turn.Guarded empties)) solver :=
  fun steps => bench.stands.regular.guarded_repairTurns bench.stands.tidy steps

theorem guarded_optimize (bench : solver.Bench kinds ledger ledger)
    (entries : Ledger.Regular kinds ledger) :
    optimize.Ensures (Turn.All (Turn.Guarded empties)) solver := by
  have weights : (⟨false, false⟩ : Discipline).priced → ledger.Priced :=
    fun is_priced => nomatch is_priced
  refine (guarded_descend bench).bind (leads_descend bench (ledger.silent_of_nothing kinds) entries
    weights solver.tableau.upright_of_nothing) ?_
  exact fun _ between both => guarded_repair both.1.bench

theorem guarded_settle (bench : solver.Bench kinds ledger ledger)
    (entries : Ledger.Regular kinds ledger) :
    settle.Ensures (Turn.All (Turn.Guarded empties)) solver :=
  (guarded_optimize bench entries).before

theorem guarded_seat {subject : Symbol}
    (exchange : solver.tableau.Exchange kinds form subject Symbol.null)
    (confined : subject.isExternal = true ∨ form.Over fun symbol => symbol.isExternal = false) :
    (seat form subject).Ensures (Turn.All (Turn.Guarded empties)) solver :=
  fun _ => exchange.guarded_pivot (confined.imp_right fun spanned => ⟨spanned, rfl⟩) nofun

/-- The artificial symbol is restricted, so neither its coming nor its going lets an external symbol
in. -/
theorem guarded_placeArtificially (bench : solver.Bench kinds ledger (constraint :: ledger))
    (trial : Trial kinds ledger constraint solver.tableau form (solver.symbols.draw .slack).1) :
    (placeArtificially form).Ensures (Turn.All (Turn.Guarded empties)) solver := by
  have silent := Ledger.silent_of_nothing kinds (constraint :: ledger)
  have upright := solver.tableau.upright_of_nothing
  have filing := filing_trial bench silent trial
  have regular := trial.posed.regular_put
  apply Ensures.reading
  apply Ensures.after_update
  apply Ensures.rework_bind
  · exact List.forall_mem_singleton.mpr (guarded_of_kept bench.stands.regular regular nofun
      (form?_of_form?_put _ form))
  have lowers : (Journal.descend (some form)).Ensures (Turn.All (Turn.Guarded empties))
      (solver.filing form) := by
    intro steps
    change ∀ turn ∈ (solver.filing form).tableau.descendTurns steps (some form), _
    rw [filing.tableau]
    refine regular.guarded_descendTurns trial.tidy_put ?_ ?_ steps
    · exact trial.settled_put
    · exact trial.confined
  refine lowers.bind (leads_try trial silent upright filing.registers filing.tableau
    filing.untouched) ?_
  rintro _ between ⟨now, reached, tried, rfl, same_tableau, same_books, _, untouched⟩
  have registers := same_books.registers filing.registers
  have frees : (freeArtificial (solver.symbols.draw .slack).1).Ensures
      (Turn.All (Turn.Guarded empties)) between := by
    apply ensures_freeArtificial
    rw [same_tableau]
    exact tried.guarded_freeing
  refine frees.bind (leads_freeArtificial tried silent registers same_tableau untouched) ?_
  rintro _ after ⟨freed, is_freed, _, told, _⟩
  have regular_freed := (tried.equivalent is_freed).1.regular
  have regular_after : after.tableau.Regular kinds := by
    rcases told with result | result <;> rw [result]
    · exact regular_freed
    · exact freed.alike_told.regular regular_freed
  apply Ensures.before
  refine fun _ => List.forall_mem_singleton.mpr (guarded_of_kept regular_after
    (regular_after.forget _) nofun fun symbol gone => ?_)
  exact Option.map_eq_none_iff.mp ((form?_forget _ _ symbol).symm.trans gone)

theorem guarded_place (bench : solver.Bench kinds ledger (constraint :: ledger))
    (draft : solver.tableau.Draft kinds ledger constraint form)
    (proper : (solver.symbols.draw .slack).1.Proper kinds)
    (avoided : ∀ entry ∈ constraint :: ledger,
      entry.Avoids (solver.symbols.draw .slack).1.id) :
    (place form constraint.markers).Ensures (Turn.All (Turn.Guarded empties)) solver := by
  refine ensures_place (fun subject chosen => ?_) (fun chosen => ?_) fun chosen varied => ?_
  · obtain ⟨exchange, confined⟩ := draft.exchange_subject chosen
    exact guarded_seat exchange confined
  · have confined := (LinearForm.of_subject?_eq_none chosen).1
    exact guarded_seat draft.exchange_marker (Or.inr confined)
  · have confined := (LinearForm.of_subject?_eq_none chosen).1
    exact guarded_placeArtificially bench ⟨draft, confined, varied, proper, rfl, avoided⟩

theorem guarded_strip (bench : solver.Bench kinds ledger priced)
    (internal : ∀ constraint, solver.constraints.get? key = some constraint →
      constraint.isActive = true → ∀ symbol ∈ constraint.markers.errors,
        symbol.Proper kinds ∧ symbol.isExternal = false) :
    (strip key).Ensures (Turn.All (Turn.Guarded empties)) solver := by
  apply ensures_strip
  intro constraint found active
  have regular := bench.stands.regular
  have charged := regular.charge (internal constraint found active) (-constraint.strength.weight)
  refine List.forall_mem_cons.mpr ⟨guarded_of_kept regular charged nofun fun _ => id,
    List.forall_mem_singleton.mpr (guarded_of_kept charged charged.settleObjective nofun ?_)⟩
  exact fun symbol gone => (form?_settleObjective _ symbol).symm.trans gone

/-- A marker that nobody pays for is taken out, and something follows. -/
theorem guarded_dropMarker_bind {ρ : Type} {following : Unit → Action Rat ρ}
    {second : ∀ result, Journal (following result)}
    (bench : solver.Bench kinds (constraint :: ledger) ledger)
    (entries : Ledger.Regular kinds (constraint :: ledger))
    (there : ∀ after, Worked kinds (fun _ => False) ledger ledger solver after →
      (second ()).Ensures (Turn.All (Turn.Guarded empties)) after) :
    ((dropMarker constraint.markers.marker).bind second).Ensures
      (Turn.All (Turn.Guarded empties)) solver :=
  have silent := Ledger.silent_of_nothing kinds (constraint :: ledger)
  Ensures.rework_bind (bench.stands.guarded_marker entries)
    (there _ (bench.dropMarker silent entries nofun nofun : _ ∧ Upright ⟨false, false⟩ _).1)

section Standing

variable (standing : solver.Standing ⟨false, false⟩ kinds offset)

include standing

theorem guarded_deactivate (key : Symbol) :
    (deactivate key).Ensures (Turn.All (Turn.Guarded empties)) solver := by
  have fits : ∀ constraint, solver.constraints.get? key = some constraint →
      constraint.isActive = true → Ledger.Regular kinds (constraint.lowered (offset key.id) ::
        (solver.constraints.erase key).ledger offset) := fun constraint found active =>
    standing.entries.perm (Catalog.ledger_perm_cons found active offset)
  refine ensures_deactivate (guarded_strip standing.bench fun constraint found active =>
    (fits constraint found active).head.internal_errors) fun constraint found active => ?_
  have split := Catalog.ledger_perm_cons found active offset
  have entries := fits constraint found active
  have bench : (solver.stripped key constraint).Bench kinds
      (constraint.lowered (offset key.id) :: (solver.constraints.erase key).ledger offset)
      ((solver.constraints.erase key).ledger offset) :=
    Bench.stripped (standing.bench.perm split split) entries.head key
  have drops : ((dropMarker (constraint.lowered (offset key.id)).markers.marker).bind
      fun _ => settle).Ensures (Turn.All (Turn.Guarded empties)) (solver.stripped key constraint) :=
    guarded_dropMarker_bind bench entries fun after worked =>
      guarded_settle worked.bench entries.tail
  exact drops

section Activation

variable (found : solver.constraints.get? key = some constraint)

include found

/-- What a failed attempt has left behind is taken out. -/
theorem guarded_rollBack
    (worked : Worked (drawn kinds solver constraint) (fun _ => False)
      (solver.marking constraint :: solver.constraints.ledger offset)
      (solver.marking constraint :: solver.constraints.ledger offset)
      (solver.prepared key constraint) before) :
    (rollBack key .unbound solver.symbols.last).Ensures (Turn.All (Turn.Guarded empties))
      before := by
  have entries := standing.entries_marking found
  have below := standing.toOrderly.below offset
  have filed : before.constraints.get? key = some (solver.marking constraint) := by
    rw [worked.constraints]
    exact get?_prepared found
  refine ensures_rollBack filed (solver.marking_active constraint) ?_ fun _ => ?_
  · refine guarded_strip worked.bench fun state there _ => ?_
    obtain rfl := Option.some.inj (filed.symm.trans there)
    exact entries.head.internal_errors
  · apply guarded_dropMarker_bind (worked.bench.stripped entries.head key) entries
    intro after dropped
    have truncated := (dropped.bench.truncate (fun _ => False) below
      after.tableau.upright_of_nothing).1
    exact Ensures.rework_bind (List.forall_mem_singleton.mpr
      (dropped.bench.stands.guarded_truncate below below))
      (guarded_optimize truncated.bench entries.tail)

variable (inactive : constraint.isActive = false) (settled : offset key.id = 0)

include inactive settled

/-- The price of a constraint whose row contradicts the required ones is refunded. -/
theorem guarded_rollBack_unsatisfied :
    (rollBack key .unsatisfied solver.symbols.last).Ensures (Turn.All (Turn.Guarded empties))
      (solver.prepared key constraint) := by
  refine ensures_rollBack (get?_prepared found) (solver.marking_active constraint) ?_ nofun
  refine guarded_strip (standing.bench_prepared found inactive settled) fun state there _ => ?_
  obtain rfl := Option.some.inj ((get?_prepared found).symm.trans there)
  exact (standing.entries_marking found).head.internal_errors

theorem guarded_activate : (activate key).Ensures (Turn.All (Turn.Guarded empties)) solver := by
  have bench := standing.bench_prepared found inactive settled
  have draft := standing.draft_prepared found
  have entries := standing.entries_marking found
  have silent := Ledger.silent_of_nothing (drawn kinds solver constraint)
    (solver.marking constraint :: solver.constraints.ledger offset)
  have regular := bench.stands.regular
  rw [prepared_tableau] at regular
  refine ensures_activate found (List.forall_mem_singleton.mpr
    (guarded_of_kept standing.stands.regular regular nofun fun _ => id))
    (guarded_place bench draft Markers.proper_draw (standing.artificial_avoided found))
    (leads_place bench silent draft Markers.proper_draw (standing.artificial_avoided found)
      (standing.upright_prepared key)) ?_ ?_
  · rintro after (worked | _ | _)
    exact guarded_settle worked.bench entries
  · intro reason after placing
    cases placing with
    | unsatisfied => exact guarded_rollBack_unsatisfied standing found inactive settled
    | unbound _ worked => exact guarded_rollBack standing found worked

end Activation

theorem guarded_reprice (found : solver.constraints.get? key = some constraint)
    (active : constraint.isActive = true) {strength : Strength Rat}
    (same : strength.isRequired = constraint.strength.isRequired) :
    (reprice key constraint strength).Ensures (Turn.All (Turn.Guarded empties)) solver := by
  obtain ⟨worked, entries⟩ := standing.repriced found active same
  have internal := (standing.entries.perm
    (Catalog.ledger_perm_cons found active offset)).head.internal_errors
  have regular := standing.stands.regular
  refine Ensures.rework_bind (List.forall_mem_singleton.mpr (guarded_of_kept regular
    (regular.charge internal _) nofun fun _ => id)) ?_
  exact (guarded_optimize worked.bench entries).before

theorem guarded_moveTarget (found : solver.constraints.get? key = some constraint)
    (pulls : constraint.Pulls symbol) (previous target : Rat) :
    (moveTarget symbol key previous target).Ensures (Turn.All (Turn.Guarded empties)) solver := by
  have worked := (standing.aimed symbol target).shifted found pulls (target - previous)
  have regular := standing.stands.regular
  apply Ensures.after_update
  apply Ensures.reading
  dsimp only
  rw [found]
  refine Ensures.rework_bind (List.forall_mem_singleton.mpr (guarded_of_kept regular
    (regular.shift constraint.markers _) nofun ?_)) ?_
  · exact fun sought => (form?_shift_eq_none_iff _ _ _ sought).mp
  · exact (guarded_repair worked.bench).before

end Standing

end Journal

end Action

end SoftSimplex
