import SoftSimplex.Proofs.Solver.Drawing

/-!
# Taking part and leaving

Activating a constraint of a solver in good standing leaves a solver in good standing: either the
constraint takes part, or everything is put right again and the constraint contradicts the required
ones. Deactivating one does so too.
-/

namespace SoftSimplex

variable {discipline : Discipline} {kinds : Nat → Symbol.Kind} {offset offset' : Nat → Rat}
  {ignored changed : Nat → Prop} {ledger : Ledger} {solver before after : Solver Rat}
  {key : Symbol} {constraint : Constraint Rat}

namespace Solver

theorem Worked.mono {fewer : Nat → Prop} {priced : Ledger}
    (worked : Worked kinds ignored ledger priced before after)
    (within : ∀ id, fewer id → ignored id) : Worked kinds fewer ledger priced before after :=
  ⟨worked.toSameBooks.mono within, worked.symbols, worked.bench⟩

/-- Work that ends at rest leaves a solver in good standing. -/
theorem Catalogued.standing (catalogued : before.Catalogued discipline kinds offset)
    (watched : before.Watched) (worked : Worked kinds ignored ledger ledger before after)
    (perm : ledger.Perm (before.constraints.ledger offset))
    (restful : after.tableau.Restful discipline) : after.Standing discipline kinds offset where
  toCatalogued := catalogued.of_sameBooks worked.toSameBooks
    (congrArg SymbolSupply.last worked.symbols).ge
  stands := by
    rw [worked.constraints]
    exact worked.bench.stands.perm perm perm
  untouched := worked.bench.untouched
  restful := restful
  watched := worked.watched watched

theorem Standing.bench (standing : solver.Standing discipline kinds offset) :
    solver.Bench kinds (solver.constraints.ledger offset) (solver.constraints.ledger offset) :=
  ⟨standing.registers, standing.stands, standing.untouched⟩

theorem Bench.perm {priced ledger' priced' : Ledger} (bench : solver.Bench kinds ledger priced)
    (perm : ledger.Perm ledger') (perm' : priced.Perm priced') :
    solver.Bench kinds ledger' priced' :=
  ⟨bench.registers, bench.stands.perm perm perm', bench.untouched⟩

/-- Offsets count where constraints are active. -/
theorem Standing.reoffset (standing : solver.Standing discipline kinds offset)
    (same : ∀ key constraint, solver.constraints.get? key = some constraint →
      constraint.isActive = true → offset' key.id = offset key.id) :
    solver.Standing discipline kinds offset' := by
  have ledgers := Catalog.ledger_congr same
  refine ⟨⟨standing.toOrderly, ?_, standing.weights⟩, ?_, standing.untouched, standing.restful,
    standing.watched⟩
  · rw [ledgers]
    exact standing.entries
  · rw [ledgers]
    exact standing.stands

section Stripped

variable {α : Type} [Scalar α] {solver before : Solver α} {constraint : Constraint α}

/-- The constraint has no markers any more, and nobody pays for it. -/
def stripped (solver : Solver α) (key : Symbol) (constraint : Constraint α) : Solver α :=
  { solver with
    constraints := solver.constraints.modify key fun state =>
      { state with markers := Markers.absent }
    tableau := (solver.tableau.charge constraint.markers.errors
      (-constraint.strength.weight)).settleObjective }

theorem get?_stripped (solver : Solver α) (key : Symbol) (constraint : Constraint α)
    (sought : Symbol) : (solver.stripped key constraint).constraints.get? sought =
      if sought.id = key.id then
        (solver.constraints.get? key).map fun state => { state with markers := Markers.absent }
      else solver.constraints.get? sought := by
  rw [stripped, Catalog.get?_modify]
  split
  · rename_i same
    rw [solver.constraints.get?_congr same]
  · rfl

/-- Of the tableau only the objective has changed. -/
theorem stripped_tableau (solver : Solver α) (key : Symbol) (constraint : Constraint α) :
    (solver.stripped key constraint).tableau =
      { solver.tableau with objective := (solver.stripped key constraint).tableau.objective } := by
  dsimp only [stripped, Tableau.settleObjective]
  split <;> rfl

/-- Stripping a prepared constraint restores what was known about it. -/
theorem get?_stripped_prepared (found : solver.constraints.get? key = some constraint)
    (absent : constraint.markers = Markers.absent)
    (same : before.constraints = (solver.prepared key constraint).constraints) (sought : Symbol) :
    (before.stripped key (solver.marking constraint)).constraints.get? sought =
      solver.constraints.get? sought := by
  rw [get?_stripped, same]
  split
  · rename_i is_key
    rw [get?_prepared found, solver.constraints.get?_congr is_key, found, Option.map_some,
      Option.some.injEq]
    rw [marking, ← absent]
  · rename_i apart
    rw [prepared_constraints, Catalog.get?_modify, if_neg apart]

end Stripped

theorem framed_stripped (solver : Solver Rat) (key : Symbol) (constraint : Constraint Rat) :
    Framed (fun id => id = key.id) solver (solver.stripped key constraint) :=
  ⟨rfl, rfl, rfl, fun _ => rfl, fun sought apart => by rw [get?_stripped, if_neg apart]⟩

/-- A stripped solver has fewer active constraints. -/
theorem watched_stripped (watched : solver.Watched) (key : Symbol) (constraint : Constraint Rat) :
    (solver.stripped key constraint).Watched := by
  refine ⟨watched.queued, fun symbol state found calm busy => ?_⟩
  have busy_before : ¬ solver.Quiet symbol.id := by
    refine fun quiet => busy fun sought other there active => ?_
    rw [get?_stripped] at there
    split at there
    · obtain ⟨marked, _, rfl⟩ := Option.map_eq_some_iff.mp there
      exact Bool.noConfusion active
    · exact quiet sought other there active
  rw [watched.cached symbol state found calm busy_before, stripped_tableau]
  rfl

/-- A stripped constraint has left the ledger. -/
theorem ledger_stripped (solver : Solver Rat) (key : Symbol) (constraint : Constraint Rat)
    (elsewhere : ∀ id, id ≠ key.id → offset' id = offset id) :
    ((solver.stripped key constraint).constraints.ledger offset').Perm
      ((solver.constraints.erase key).ledger offset) := by
  refine (Catalog.ledger_modify_perm _ (fun _ => rfl) offset').trans (List.Perm.of_eq ?_)
  refine Catalog.ledger_congr fun sought other found _ => elsewhere sought.id fun same => ?_
  rw [Catalog.get?_erase, if_pos same] at found
  exact Option.some_ne_none _ found.symm

theorem Catalogued.stripped (catalogued : solver.Catalogued discipline kinds offset)
    (found : solver.constraints.get? key = some constraint) (active : constraint.isActive = true)
    (elsewhere : ∀ id, id ≠ key.id → offset' id = offset id) :
    (solver.stripped key constraint).Catalogued discipline kinds offset' := by
  refine catalogued.of_origin (solver.stripped key constraint)
    (fun _ state there => ⟨state, there⟩) (Nat.le_refl _) (fun sought other there => ?_) ?_
  · rw [get?_stripped, found] at there
    split at there
    · rename_i same
      obtain rfl := Option.some.inj there
      refine ⟨same.trans_le (catalogued.key_below key constraint found), Or.inr ?_⟩
      exact ⟨rfl, catalogued.expression key constraint found,
        catalogued.reduced key constraint found,
        fun is_priced => catalogued.weights is_priced key constraint found⟩
    · exact ⟨catalogued.key_below sought other there, Or.inl there⟩
  · have split := catalogued.entries.perm (Catalog.ledger_perm_cons found active offset)
    exact split.tail.perm (solver.ledger_stripped key constraint elsewhere).symm

/-- Stripping takes the price of a constraint out of the objective. -/
theorem Bench.stripped {priced : Ledger} (bench : solver.Bench kinds ledger (constraint :: priced))
    (fit : constraint.Fit kinds) (key : Symbol) :
    (solver.stripped key constraint).Bench kinds ledger priced where
  registers := bench.registers
  stands := bench.stands.strip fit
  untouched := by
    rw [stripped_tableau]
    exact bench.untouched

/-- A constraint without a price leaves with its marker. -/
theorem Bench.dropMarker (bench : solver.Bench kinds (constraint :: ledger) ledger)
    (silent : Ledger.Silent kinds ignored (constraint :: ledger))
    (entries : Ledger.Regular kinds (constraint :: ledger))
    (grounded : discipline.steady →
      solver.tableau.Grounded fun symbol => symbol.id ≠ constraint.markers.marker.id)
    (poised : discipline.steady → discipline.priced →
      ∃ point, solver.tableau.Poised kinds constraint.markers.marker point) :
    Worked kinds ignored ledger ledger solver
        (solver.adopt (solver.tableau.dropMarker constraint.markers.marker)) ∧
      (solver.adopt (solver.tableau.dropMarker constraint.markers.marker)).tableau.Upright
        discipline := by
  obtain ⟨stands, upright⟩ := bench.stands.dropMarker entries grounded poised
  have heeds := bench.stands.regular.heeds (silent.indifferent bench.stands.means)
  refine ⟨bench.adopt (Tableau.tells_dropMarker bench.stands.regular heeds
    entries.head.markers.marker_proper) stands, ?_⟩
  rw [adopt_tableau]
  exact upright.alike (Tableau.alike_told _)

/-- There is nothing above the mark to be taken out. -/
theorem Bench.truncate (bench : solver.Bench kinds ledger ledger) (ignored : Nat → Prop)
    {mark : Nat} (below : ledger.Below mark) (upright : solver.tableau.Upright discipline) :
    Worked kinds ignored ledger ledger solver
        (solver.adopt (solver.tableau.truncate mark)) ∧
      (solver.adopt (solver.tableau.truncate mark)).tableau.Upright discipline := by
  obtain ⟨alike, stands, agenda⟩ := bench.stands.truncate below below
  refine ⟨bench.adopt (.of_alike alike (congrArg Agenda.touched agenda)) stands, ?_⟩
  rw [adopt_tableau]
  exact (upright.alike alike).alike (Tableau.alike_told _)

/-- Nothing is known about a variable of the class that was not known before. -/
def Undisturbed (ignored : Nat → Prop) (before after : Solver Rat) : Prop :=
  ∀ symbol : Symbol, ignored symbol.id →
    after.unknowns.get? symbol = before.unknowns.get? symbol ∧
      (after.Waits symbol.id ↔ before.Waits symbol.id)

theorem Undisturbed.trans (same : Undisturbed ignored solver before)
    (same' : Undisturbed ignored before after) : Undisturbed ignored solver after :=
  fun symbol is_ignored =>
    ⟨(same' symbol is_ignored).1.trans (same symbol is_ignored).1,
      (same' symbol is_ignored).2.trans (same symbol is_ignored).2⟩

/-- A row without variables belongs to a constraint that mentions no variable by itself. -/
theorem Standing.overlooked_of_confined (standing : solver.Standing discipline kinds offset)
    (found : solver.constraints.get? key = some constraint)
    (confined : (solver.tableau.rowFor constraint.expression
      (solver.marking constraint).markers).Over fun symbol => symbol.isExternal = false)
    {symbol : Symbol} {state : Variable Rat} (registered : solver.unknowns.get? symbol = some state)
    (quiet : solver.Quiet symbol.id) : solver.Overlooked constraint symbol.id := by
  have numbered : solver.unknowns.get? ⟨symbol.id, .external⟩ = some state := by
    rw [← registered]
    exact solver.unknowns.get?_congr rfl
  have draft := standing.draft_prepared found
  have entries := standing.entries_marking found
  obtain ⟨proper, was_external⟩ := standing.registers symbol state registered
  have external : drawn kinds solver constraint symbol.id = .external :=
    (drawn_eq solver constraint _ proper (standing.variable_below _ _ registered)).trans
      was_external
  have indifferent := draft.stands.means.indifferent proper fun entry member => by
    refine ⟨?_, fun owned => (entries.fit entry
      (List.mem_cons_of_mem _ member)).kind_ne_external owned external⟩
    obtain ⟨sought, active, there, is_active, rfl⟩ :=
      (solver.constraints.mem_ledger_iff offset entry).mp member
    exact quiet sought active there is_active
  exact ⟨⟨state, numbered⟩, quiet, draft.expression_avoids confined
    (standing.reduced key constraint found) proper external indifferent⟩

/-- A rejected constraint leaves a solver in good standing, in which it takes no part. If the
reason is that no choice for the variables can do, there is none. -/
structure Rejected (discipline : Discipline) (offset : Nat → Rat) (constraint : Constraint Rat)
    (solver : Solver Rat) (reason : Refusal) (after : Solver Rat) : Prop extends
    Framed (fun _ => False) solver after where
  standing : ∃ kinds, after.Standing discipline kinds offset
  symbols : after.symbols = solver.symbols
  reasons : reason = .unsatisfied ∨ reason = .unbound
  unmoved : reason = .unsatisfied →
    ∀ symbol, after.tableau.value symbol = solver.tableau.value symbol
  not_met : reason = .unsatisfied ∨ (discipline.steady ∧ discipline.priced) →
    ∀ given, ¬ Ledger.Met (constraint :: solver.constraints.ledger offset) given
  quiet : ∀ symbol state, solver.unknowns.get? symbol = some state → solver.Quiet symbol.id →
    after.unknowns.get? symbol = solver.unknowns.get? symbol ∧
      (after.Waits symbol.id ↔ solver.Waits symbol.id)

/-- Whether a constraint is met does not depend on its markers. -/
theorem met_marking {given : Assignment} :
    Ledger.Met (solver.marking constraint :: ledger) given ↔
      Ledger.Met (constraint :: ledger) given := by
  rw [Ledger.Met, Ledger.Met, List.forall_mem_cons, List.forall_mem_cons]
  rfl

/-- An accepted constraint takes part, with markers that nobody had before. -/
structure Activated (discipline : Discipline) (offset : Nat → Rat) (key : Symbol)
    (constraint : Constraint Rat) (solver after : Solver Rat) : Prop extends
    Framed (fun id => id = key.id) solver after where
  standing : ∃ kinds, after.Standing discipline kinds offset
  symbols : solver.symbols.last ≤ after.symbols.last
  found : ∃ markers : Markers, solver.symbols.last < markers.marker.id ∧
    after.constraints.get? key = some { constraint with markers }
  parted : discipline.steady → ∀ state, after.constraints.get? key = some state →
    after.tableau.Grounded fun symbol => symbol.id ≠ state.markers.marker.id

/-- Giving back the symbols of a rejected constraint. -/
theorem Standing.restored (standing : solver.Standing discipline kinds offset)
    (constraint : Constraint Rat)
    (framed : Framed (fun _ => False) solver after)
    (bench : after.Bench (drawn kinds solver constraint) (solver.constraints.ledger offset)
      (solver.constraints.ledger offset)) (restful : after.tableau.Restful discipline)
    (watched : after.Watched) :
    ({ after with symbols := solver.symbols } : Solver Rat).Standing discipline
      (drawn kinds solver constraint) offset := by
  have same : ∀ sought, after.constraints.get? sought = solver.constraints.get? sought :=
    fun sought => framed.constraints sought id
  have perm : (solver.constraints.ledger offset).Perm (after.constraints.ledger offset) :=
    Catalog.ledger_perm_of_listing (Catalog.listing_perm fun sought => (same sought).symm) offset
  have rekinded := standing.toCatalogued.rekind (drawn_eq solver constraint)
  refine ⟨rekinded.of_origin { after with symbols := solver.symbols } (fun symbol state found =>
    ?_) (Nat.le_refl _) (fun sought other found => ?_) (rekinded.entries.perm perm),
    bench.stands.perm perm perm, bench.untouched, restful, ⟨watched.queued, watched.cached⟩⟩
  · have outlines := framed.outline symbol
    rw [found, Option.map_some] at outlines
    obtain ⟨before, was, _⟩ := Option.map_eq_some_iff.mp outlines.symm
    exact ⟨before, was⟩
  · have before := (same sought).symm.trans found
    exact ⟨(rekinded.key_below sought other before).trans_eq framed.lastConstraint.symm,
      Or.inl before⟩

/-- What is kept of a solver while a constraint is prepared, tried and stripped again. -/
theorem restores_books {middle : Solver Rat}
    (found : solver.constraints.get? key = some constraint)
    (absent : constraint.markers = Markers.absent)
    (same : SameBooks (solver.Overlooked constraint) (solver.prepared key constraint) middle)
    (same' : SameBooks (solver.Overlooked constraint)
      (middle.stripped key (solver.marking constraint)) after) :
    Framed (fun _ => False) solver after ∧
      Undisturbed (solver.Overlooked constraint) solver after ∧
        (solver.Watched → after.Watched) := by
  have through := ((solver.framed_prepared key constraint).trans same.framed).trans
    ((middle.framed_stripped key (solver.marking constraint)).trans same'.framed)
  refine ⟨⟨through.identity, through.lastConstraint, through.autoUpdate, through.outline,
    fun sought _ => ?_⟩, ?_, fun watched => ?_⟩
  · rw [same'.constraints]
    exact get?_stripped_prepared found absent same.constraints sought
  · have prepared : Undisturbed (solver.Overlooked constraint) solver
        (solver.prepared key constraint) := fun _ => solver.unmarked_prepared key constraint
    have stripped : Undisturbed (solver.Overlooked constraint) middle
        (middle.stripped key (solver.marking constraint)) := fun _ _ => ⟨rfl, Iff.rfl⟩
    exact (prepared.trans same.unmarked).trans (stripped.trans same'.unmarked)
  · exact same'.watched (watched_stripped (same.watched (watched_prepared watched found)) key _)

end Solver

namespace Action

open Solver

/-! ## Settling a tableau -/

/-- Refreshing the caches after work that has ended at rest. -/
theorem leads_refresh (worked : Worked kinds ignored ledger ledger solver after)
    (restful : after.tableau.Restful discipline) :
    (refreshIfAutomatic : Action Rat Unit).Leads after fun _ refreshed =>
      Worked kinds (fun _ => False) ledger ledger solver refreshed ∧
        refreshed.tableau.Restful discipline := by
  refine Yields.weaken (leads_refreshIfAutomatic after) ?_
  rintro _ refreshed ⟨same, symbols, tableau⟩
  refine ⟨(worked.mono fun _ => False.elim).trans ⟨same, symbols,
    same.registers worked.bench.registers, ?_, ?_⟩, ?_⟩
  · rw [tableau]
    exact worked.bench.stands
  · rw [tableau]
    exact worked.bench.untouched
  · rw [tableau]
    exact restful

/-- The two phases and the refresh that may follow. -/
theorem leads_settle (bench : solver.Bench kinds ledger ledger)
    (silent : ledger.Silent kinds ignored) (entries : Ledger.Regular kinds ledger)
    (weights : discipline.priced → ledger.Priced) (upright : solver.tableau.Upright discipline) :
    (do optimize; refreshIfAutomatic : Action Rat Unit).Leads solver fun _ after =>
      Worked kinds (fun _ => False) ledger ledger solver after ∧
        after.tableau.Restful discipline :=
  Yields.bind (leads_optimize bench silent entries weights upright)
    fun _ _ both => leads_refresh both.1 both.2

/-- Settling a tableau does not touch the rows of dummies. -/
theorem leads_settle_grounded (bench : solver.Bench kinds ledger ledger)
    (silent : ledger.Silent kinds ignored) (entries : Ledger.Regular kinds ledger)
    (weights : discipline.priced → ledger.Priced) (upright : solver.tableau.Upright discipline)
    {allowed : Symbol → Prop} (grounded : discipline.steady → solver.tableau.Grounded allowed) :
    (do optimize; refreshIfAutomatic : Action Rat Unit).Leads solver fun _ after =>
      discipline.steady → after.tableau.Grounded allowed := by
  refine Yields.bind (leads_optimize_grounded bench silent entries weights upright grounded) ?_
  intro _ between kept
  refine Yields.weaken (leads_refreshIfAutomatic between) ?_
  rintro _ after ⟨_, _, tableau⟩
  rw [tableau]
  exact kept

theorem meets_prepare {α : Type} [Scalar α] (solver : Solver α) (key : Symbol)
    (constraint : Constraint α) {refused : Refusal → Solver α → Prop} {paused : Solver α → Prop} :
    (prepare key constraint).Meets solver (fun result after =>
      result = (solver.tableau.rowFor constraint.expression (solver.marking constraint).markers,
        (solver.marking constraint).markers) ∧ after = solver.prepared key constraint)
        refused paused :=
  Meets.read_bind (Meets.update_bind (Meets.pure ⟨rfl, rfl⟩))

theorem meets_strip {α : Type} [Scalar α] {solver : Solver α} {constraint : Constraint α}
    {refused : Refusal → Solver α → Prop} {paused : Solver α → Prop}
    (found : solver.constraints.get? key = some constraint)
    (active : constraint.isActive = true) :
    (strip key).Meets solver (fun result after =>
      result = some constraint.markers.marker ∧ after = solver.stripped key constraint)
        refused paused := by
  refine Meets.read_bind ?_
  simp only [found, active, if_true]
  exact Meets.update_bind (Meets.pure ⟨rfl, rfl⟩)

theorem meets_strip_idle {α : Type} [Scalar α] {solver : Solver α}
    {refused : Refusal → Solver α → Prop} {paused : Solver α → Prop}
    (idle : ∀ constraint, solver.constraints.get? key = some constraint →
      constraint.isActive = false) :
    (strip key).Meets solver (fun result after => result = none ∧ after = solver)
      refused paused := by
  refine Meets.read_bind ?_
  cases found : solver.constraints.get? key with
  | none => exact Meets.pure ⟨rfl, rfl⟩
  | some constraint =>
      simp only [idle constraint found, Bool.false_eq_true, if_false]
      exact Meets.pure ⟨rfl, rfl⟩

theorem leads_strip (found : solver.constraints.get? key = some constraint)
    (active : constraint.isActive = true) :
    (strip key).Leads solver fun result after =>
      result = some constraint.markers.marker ∧ after = solver.stripped key constraint :=
  meets_strip found active

theorem leads_strip_idle (idle : ∀ constraint, solver.constraints.get? key = some constraint →
    constraint.isActive = false) :
    (strip key : Action Rat _).Leads solver fun result after => result = none ∧ after = solver :=
  meets_strip_idle idle

/-- What deactivating a constraint comes to. -/
structure Deactivated (discipline : Discipline) (kinds : Nat → Symbol.Kind)
    (offset : Nat → Rat) (key : Symbol) (solver after : Solver Rat) : Prop extends
    Framed (fun id => id = key.id) solver after, Standing discipline kinds offset after where
  symbols : after.symbols = solver.symbols
  found : after.constraints.get? key = (solver.constraints.get? key).map fun state =>
    { state with markers := Markers.absent }

/-- A constraint can be taken out if no row of a dummy mentions its marker. -/
theorem leads_deactivate_parted (standing : solver.Standing discipline kinds offset)
    (parted : discipline.steady → ∀ constraint, solver.constraints.get? key = some constraint →
      constraint.isActive = true →
        solver.tableau.Grounded fun symbol => symbol.id ≠ constraint.markers.marker.id)
    (elsewhere : ∀ id, id ≠ key.id → offset' id = offset id) :
    (deactivate key).Leads solver fun _ after =>
      Deactivated discipline kinds offset' key solver after := by
  by_cases idle : ∀ constraint, solver.constraints.get? key = some constraint →
      constraint.isActive = false
  -- An idle constraint is not in the ledger, so its offset may change freely.
  · refine Yields.bind (leads_strip_idle idle) ?_
    rintro _ after ⟨rfl, unchanged⟩
    rw [unchanged]
    refine Yields.pure ⟨⟨rfl, rfl, rfl, fun _ => rfl, fun _ _ => rfl⟩, ?_, rfl, ?_⟩
    · refine standing.reoffset fun sought constraint found active => elsewhere _ fun same => ?_
      rw [solver.constraints.get?_congr same] at found
      rw [idle constraint found] at active
      exact Bool.noConfusion active
    · cases found : solver.constraints.get? key with
      | none => rfl
      | some constraint =>
          rw [Option.map_some, ← standing.inactive key constraint found (idle constraint found)]
  · push Not at idle
    obtain ⟨constraint, found, active⟩ := idle
    rw [ne_eq, Bool.not_eq_false] at active
    refine Yields.bind (leads_strip found active) ?_
    rintro _ between ⟨rfl, is_stripped⟩
    have split := Catalog.ledger_perm_cons found active offset
    have entries := standing.entries.perm split
    have fit := entries.head
    have perm := (solver.ledger_stripped key constraint elsewhere).symm
    have catalogued := standing.toCatalogued.stripped found active elsewhere
    have bench : (solver.stripped key constraint).Bench kinds
        (constraint.lowered (offset key.id) :: (solver.constraints.erase key).ledger offset)
        ((solver.constraints.erase key).ledger offset) :=
      Bench.stripped (standing.bench.perm split split) fit key
    -- The objective is refunded by now, while the rows still hold the constraint.
    have grounded : discipline.steady → (solver.stripped key constraint).tableau.Grounded
        fun symbol => symbol.id ≠ constraint.markers.marker.id := by
      intro steady
      rw [stripped_tableau]
      exact parted steady constraint found active
    have poised : discipline.steady → discipline.priced → ∃ point,
        (solver.stripped key constraint).tableau.Poised kinds constraint.markers.marker point := by
      intro steady is_priced
      have feasible : (solver.stripped key constraint).tableau.Feasible := by
        rw [stripped_tableau]
        exact standing.restful.feasible steady is_priced
      exact ⟨_, feasible.poised bench.stands.regular _⟩
    have silent : ∀ some : Ledger, some.Silent kinds fun _ => False := fun _ _ => False.elim
    obtain ⟨worked, upright⟩ := bench.dropMarker (silent _) entries grounded poised
    rw [is_stripped]
    refine Yields.rework_bind (Yields.weaken (leads_settle worked.bench (silent _)
      (catalogued.entries.perm perm.symm) (fun is_priced => ?_) upright) ?_)
    · exact fun entry member => catalogued.priced is_priced entry (perm.mem_iff.mp member)
    · rintro _ after ⟨worked', restful⟩
      have all := worked.trans worked'
      refine ⟨(framed_stripped solver key constraint).trans all.toSameBooks.framed,
        catalogued.standing (watched_stripped standing.watched key constraint) all perm restful,
        all.symbols, ?_⟩
      rw [all.constraints, get?_stripped, if_pos rfl]

/-- A constraint other than a required equality can be taken out whatever the discipline. -/
theorem leads_deactivate (standing : solver.Standing discipline kinds offset)
    (kept : discipline.steady → ∀ constraint, solver.constraints.get? key = some constraint →
      constraint.isActive = true →
        ¬ (constraint.relation = some .equal ∧ constraint.strength.isRequired = true))
    (elsewhere : ∀ id, id ≠ key.id → offset' id = offset id) :
    (deactivate key).Leads solver fun _ after =>
      Deactivated discipline kinds offset' key solver after := by
  refine leads_deactivate_parted standing (fun steady constraint found active => ?_) elsewhere
  have fit := (standing.entries.perm (Catalog.ledger_perm_cons found active offset)).head
  have not_dummy : constraint.markers.marker.isDummy = false := by
    rw [← Bool.not_eq_true]
    exact fun is_dummy => kept steady constraint found active (fit.marker_isDummy_iff.mp is_dummy)
  exact (standing.restful.grounded steady).avoiding standing.stands.regular
    fit.markers.marker_proper not_dummy

/-! ## Activation -/

section Activation

variable (standing : solver.Standing discipline kinds offset)
  (found : solver.constraints.get? key = some constraint)
  (inactive : constraint.isActive = false) (settled : offset key.id = 0)

include standing found inactive settled

/-- What was drawn for a row of dummies that does not vanish is given back. -/
theorem leads_rollBack_unsatisfied
    (confined : (solver.tableau.rowFor constraint.expression
      (solver.marking constraint).markers).Over fun symbol => symbol.isExternal = false)
    (not_met : ∀ given,
      ¬ Ledger.Met (solver.marking constraint :: solver.constraints.ledger offset) given) :
    (rollBack key .unsatisfied solver.symbols.last).Leads (solver.prepared key constraint)
      fun _ after => Rejected discipline offset constraint solver .unsatisfied after := by
  refine Yields.bind (leads_strip (get?_prepared found) (solver.marking_active constraint)) ?_
  rintro _ between ⟨rfl, is_stripped⟩
  simp only [reduceCtorEq, if_false]
  refine Yields.update ?_
  obtain ⟨framed, undisturbed, watched⟩ := restores_books found
    (standing.inactive key constraint found inactive) (.refl _ (solver.prepared key constraint))
    (.refl _ _)
  rw [← is_stripped] at framed undisturbed watched
  have bench := (standing.bench_prepared found inactive settled).stripped
    (standing.entries_marking found).head key
  rw [← is_stripped] at bench
  -- Nothing but the objective was charged and refunded, so every row is as it was.
  have only_objective : between.tableau =
      { solver.tableau with objective := between.tableau.objective } := by
    rw [is_stripped, stripped_tableau, prepared_tableau]
    rfl
  have equations : between.tableau.equations = solver.tableau.equations := by
    rw [only_objective]
    rfl
  have restful : between.tableau.Restful discipline := by
    refine ⟨⟨fun steady => ?_, fun steady is_priced => ?_⟩, ?_, fun steady is_priced => ?_⟩
    · rw [only_objective]
      exact standing.restful.grounded steady
    · rw [only_objective]
      exact standing.restful.feasible steady is_priced
    · rw [only_objective]
      exact standing.restful.idle
    · exact standing.stands_drawn.lowest_congr bench.stands equations
        (standing.restful.lowest steady is_priced)
  exact {
    toFramed := ⟨framed.identity, framed.lastConstraint, framed.autoUpdate, framed.outline,
      framed.constraints⟩
    standing := ⟨_, standing.restored constraint framed bench restful (watched standing.watched)⟩
    symbols := rfl
    reasons := Or.inl rfl
    unmoved := fun _ symbol => by
      change between.tableau.value symbol = _
      rw [only_objective]
      rfl
    not_met := fun _ given met => not_met given (met_marking.mpr met)
    quiet := fun symbol state registered quiet =>
      undisturbed symbol (standing.overlooked_of_confined found confined registered quiet) }

omit settled in
/-- What a failed attempt has left in the tableau is taken out again. -/
theorem leads_rollBack_unbound
    (confined : (solver.tableau.rowFor constraint.expression
      (solver.marking constraint).markers).Over fun symbol => symbol.isExternal = false)
    (worked : Worked (drawn kinds solver constraint) (solver.Overlooked constraint)
      (solver.marking constraint :: solver.constraints.ledger offset)
      (solver.marking constraint :: solver.constraints.ledger offset)
      (solver.prepared key constraint) before)
    (grounded : discipline.steady → before.tableau.Grounded fun symbol =>
      symbol.id ≠ (solver.marking constraint).markers.marker.id)
    (poised : discipline.steady → discipline.priced → ∃ point, before.tableau.Poised
      (drawn kinds solver constraint) (solver.marking constraint).markers.marker point)
    (not_met : discipline.steady → discipline.priced → ∀ given,
      ¬ Ledger.Met (solver.marking constraint :: solver.constraints.ledger offset) given) :
    (rollBack key .unbound solver.symbols.last).Leads before
      fun _ after => Rejected discipline offset constraint solver .unbound after := by
  have entries := standing.entries_marking found
  have silent := standing.silent_prepared found
  have below := standing.toOrderly.below offset
  have filed : before.constraints.get? key = some (solver.marking constraint) := by
    rw [worked.constraints]
    exact get?_prepared found
  refine Yields.bind (leads_strip filed (solver.marking_active constraint)) ?_
  rintro _ between ⟨rfl, is_stripped⟩
  have bench := worked.bench.stripped entries.head key
  have grounded' : discipline.steady → (before.stripped key
      (solver.marking constraint)).tableau.Grounded fun symbol =>
        symbol.id ≠ (solver.marking constraint).markers.marker.id := fun steady => by
    rw [stripped_tableau]
    exact grounded steady
  have poised' : discipline.steady → discipline.priced → ∃ point, (before.stripped key
      (solver.marking constraint)).tableau.Poised (drawn kinds solver constraint)
        (solver.marking constraint).markers.marker point := fun steady is_priced => by
    obtain ⟨point, is_poised⟩ := poised steady is_priced
    rw [stripped_tableau]
    exact ⟨point, is_poised.solves, is_poised.free, is_poised.restricted⟩
  -- The marker goes first. What is left above the mark is then held by no live constraint, and
  -- can be cut off.
  obtain ⟨dropped, upright⟩ := bench.dropMarker silent entries grounded' poised'
  rw [← is_stripped] at dropped upright
  simp only [if_true]
  refine Yields.rework_bind (Yields.rework_bind ?_)
  obtain ⟨truncated, level⟩ := dropped.bench.truncate (solver.Overlooked constraint) below upright
  have weights : discipline.priced → (solver.constraints.ledger offset).Priced :=
    standing.toCatalogued.priced
  refine Yields.bind (leads_optimize truncated.bench silent.tail entries.tail weights level) ?_
  rintro _ optimized ⟨settles, restful⟩
  refine Yields.update ?_
  have through := (dropped.trans truncated).trans settles
  rw [is_stripped] at through
  obtain ⟨framed, undisturbed, watched⟩ := restores_books found
    (standing.inactive key constraint found inactive) worked.toSameBooks through.toSameBooks
  exact {
    toFramed := ⟨framed.identity, framed.lastConstraint, framed.autoUpdate, framed.outline,
      framed.constraints⟩
    standing := ⟨_, standing.restored constraint framed settles.bench restful
      (watched standing.watched)⟩
    symbols := rfl
    reasons := Or.inr rfl
    unmoved := fun impossible => Refusal.noConfusion impossible
    not_met := fun promised given met => promised.elim Refusal.noConfusion fun both =>
      not_met both.1 both.2 given (met_marking.mpr met)
    quiet := fun symbol state registered quiet =>
      undisturbed symbol (standing.overlooked_of_confined found confined registered quiet) }

/-- A constraint is accepted or rejected. -/
theorem yields_activate : (activate key).Yields solver
    (fun _ after => Activated discipline offset key constraint solver after)
    (fun reason after => Rejected discipline offset constraint solver reason after) := by
  have entries := standing.entries_marking found
  have silent := standing.silent_prepared found
  have catalogued := standing.catalogued_prepared found inactive settled
  have perm := perm_prepared found inactive settled
  refine Yields.read_bind ?_
  simp only [found]
  refine Yields.bind_of_leads (meets_prepare solver key constraint) ?_
  rintro _ _ ⟨rfl, rfl⟩
  refine Yields.bind_of_leads (leads_place (standing.bench_prepared found inactive settled) silent
    (standing.draft_prepared found) Markers.proper_draw (standing.artificial_avoided found)
    (standing.upright_prepared key)) ?_
  rintro result between placing
  cases placing with
  | placed worked upright grounded =>
      have weights : discipline.priced →
          Ledger.Priced (solver.marking constraint :: solver.constraints.ledger offset) :=
        fun is_priced entry member => catalogued.priced is_priced entry (perm.mem_iff.mp member)
      refine Yields.of_leads (Yields.both
        (leads_settle worked.bench silent entries weights upright)
        (leads_settle_grounded worked.bench silent entries weights upright grounded)) ?_
      rintro _ after ⟨⟨settles, restful⟩, kept⟩
      have through := (worked.mono fun _ => False.elim).trans settles
      have there : after.constraints.get? key = some (solver.marking constraint) := by
        rw [through.constraints]
        exact get?_prepared found
      refine ⟨(solver.framed_prepared key constraint).trans through.toSameBooks.framed,
        ⟨_, catalogued.standing (watched_prepared standing.watched found) through perm restful⟩,
        ?_, ⟨(solver.marking constraint).markers, ?_, there⟩, fun steady state found' => ?_⟩
      · exact (solver.last_le_prepared key constraint).trans_eq
          (congrArg SymbolSupply.last through.symbols).symm
      · exact (owns_marking key entries.head.owns_marker).1
      · obtain rfl := Option.some.inj (there.symm.trans found')
        exact kept steady
  | unsatisfied confined not_met =>
      refine Yields.bind_of_leads (leads_rollBack_unsatisfied standing found inactive settled
        confined not_met) ?_
      exact fun _ after rejected => Yields.refuse rejected
  | unbound confined worked grounded poised not_met =>
      refine Yields.bind_of_leads (leads_rollBack_unbound standing found inactive confined worked
        grounded poised not_met) ?_
      exact fun _ after rejected => Yields.refuse rejected

end Activation

end Action

end SoftSimplex
