import SoftSimplex.Proofs.Solver.Books
import SoftSimplex.Proofs.Solver.Outcome
import SoftSimplex.Proofs.Tableau.Trial
import SoftSimplex.Solver.Activation

/-!
# Work on the tableau

What the actions do that change nothing but the tableau: the two phases, and finding a place for
the row of a constraint. Each keeps the books, and each says what the tableau stands for
afterwards.
-/

namespace SoftSimplex

variable {discipline : Discipline} {kinds : Nat → Symbol.Kind} {ignored : Nat → Prop}
  {ledger priced : Ledger} {constraint : Constraint Rat}

/-- The entries do not speak of ignored variables. -/
def Ledger.Silent (kinds : Nat → Symbol.Kind) (ignored : Nat → Prop) (ledger : Ledger) : Prop :=
  ∀ id, ignored id → id ≠ 0 ∧ kinds id = .external ∧ ∀ entry ∈ ledger, entry.Avoids id

theorem Ledger.Silent.tail (silent : Ledger.Silent kinds ignored (constraint :: ledger)) :
    Ledger.Silent kinds ignored ledger := fun id is_ignored =>
  have ⟨proper, external, avoids⟩ := silent id is_ignored
  ⟨proper, external, fun entry member => avoids entry (List.mem_cons_of_mem _ member)⟩

theorem Ledger.Silent.indifferent (silent : ledger.Silent kinds ignored) {tableau : Tableau Rat}
    (means : tableau.Means ledger) (id : Nat) (is_ignored : ignored id) :
    tableau.Indifferent id :=
  have ⟨proper, _, avoids⟩ := silent id is_ignored
  means.indifferent proper avoids

namespace Solver

variable {solver between after : Solver Rat}

/-- A solver whose tableau can be worked on. -/
structure Bench (kinds : Nat → Symbol.Kind) (ledger priced : Ledger) (solver : Solver Rat) :
    Prop where
  registers : solver.Registers kinds
  stands : solver.tableau.Stands kinds ledger priced
  untouched : solver.tableau.agenda.touched = []

/-- Work that has kept the books and the supply of symbols. -/
structure Worked (kinds : Nat → Symbol.Kind) (ignored : Nat → Prop) (ledger priced : Ledger)
    (solver after : Solver Rat) : Prop extends SameBooks ignored solver after where
  symbols : after.symbols = solver.symbols
  bench : after.Bench kinds ledger priced

theorem Worked.trans {ledger' priced' : Ledger}
    (worked : Worked kinds ignored ledger priced solver between)
    (worked' : Worked kinds ignored ledger' priced' between after) :
    Worked kinds ignored ledger' priced' solver after :=
  ⟨worked.toSameBooks.trans worked'.toSameBooks, worked'.symbols.trans worked.symbols,
    worked'.bench⟩

theorem SameBooks.registers (same : SameBooks ignored solver after)
    (registers : solver.Registers kinds) : after.Registers kinds := by
  intro symbol state found
  obtain ⟨before, was, _⟩ := same.exists_of_get? found
  exact registers symbol before was

/-- Taking over a tableau that tells of its changes. -/
theorem Bench.adopt (bench : solver.Bench kinds ledger priced) {tableau : Tableau Rat}
    (tells : solver.tableau.Tells kinds ignored tableau) {ledger' priced' : Ledger}
    (stands : tableau.Stands kinds ledger' priced') :
    Worked kinds ignored ledger' priced' solver (solver.adopt tableau) := by
  have same := SameBooks.adopt bench.registers bench.untouched tells
  refine ⟨same, solver.adopt_symbols tableau, same.registers bench.registers, ?_, ?_⟩
  · rw [adopt_tableau]
    exact stands.told
  · rw [adopt_tableau]
    rfl

/-- The row of a trial is filed under the symbol that is drawn for it. -/
def filing (solver : Solver Rat) (form : LinearForm Rat) : Solver Rat :=
  ({ solver with symbols := (solver.symbols.draw .slack).2 } : Solver Rat).adopt
    (solver.tableau.put (solver.symbols.draw .slack).1 form)

/-- Filing a row keeps the books, and nothing else is new in the tableau. -/
structure Filing (kinds : Nat → Symbol.Kind) (ignored : Nat → Prop) (form : LinearForm Rat)
    (solver : Solver Rat) : Prop extends SameBooks ignored solver (solver.filing form) where
  registers : (solver.filing form).Registers kinds
  tableau : (solver.filing form).tableau =
    solver.tableau.put (solver.symbols.draw .slack).1 form
  untouched : (solver.filing form).tableau.agenda.touched = []

end Solver

namespace Action

open Solver

variable {solver : Solver Rat}

/-- Lowering the objective. -/
theorem leads_descend (bench : solver.Bench kinds ledger ledger)
    (silent : ledger.Silent kinds ignored) (entries : Ledger.Regular kinds ledger)
    (weights : discipline.priced → ledger.Priced) (upright : solver.tableau.Upright discipline) :
    (descend none).Leads solver fun _ after =>
      Worked kinds ignored ledger ledger solver after ∧ after.tableau.Upright discipline ∧
        (discipline.steady → discipline.priced → after.tableau.objective.Lowest) := by
  refine Yields.descend fun steps reached finished => ?_
  obtain ⟨stands, upright', lowest⟩ := bench.stands.descend entries weights upright finished
  have settled : solver.tableau.Settled kinds ((none : Option (LinearForm Rat)).getD
      solver.tableau.objective) := bench.stands.regular.objective_settled
  have confined : ((none : Option (LinearForm Rat)).getD solver.tableau.objective).Over
      fun symbol => symbol.isExternal = false := bench.stands.regular.objective_confined
  have tells := Tableau.tells_descend bench.stands.regular bench.stands.tidy settled confined
    (silent.indifferent bench.stands.means) steps
  refine ⟨bench.adopt tells stands, ?_, ?_⟩
  · rw [adopt_tableau]
    exact upright'.alike (Tableau.alike_told _)
  · rw [adopt_tableau]
    exact lowest

/-- Repairing the rows while the objective is at its least. -/
theorem leads_repair (bench : solver.Bench kinds ledger ledger)
    (silent : ledger.Silent kinds ignored) (entries : Ledger.Regular kinds ledger)
    (grounded : discipline.steady → solver.tableau.Grounded fun _ => True)
    (ready : discipline.steady → discipline.priced → solver.tableau.objective.Lowest ∧
      solver.tableau.Alert ∧ ∃ given, ledger.Met given) :
    (repair : Action Rat Unit).Leads solver fun _ after =>
      Worked kinds ignored ledger ledger solver after ∧ after.tableau.Restful discipline := by
  refine Yields.repair fun steps finished => ?_
  obtain ⟨stands, restful⟩ := bench.stands.repair entries grounded ready finished
  have tells := Tableau.tells_repair bench.stands.regular bench.stands.tidy
    (silent.indifferent bench.stands.means) steps
  refine ⟨bench.adopt tells stands, ?_⟩
  rw [adopt_tableau]
  exact restful.told

/-- The two phases lead from an upright tableau to a restful one. -/
theorem leads_optimize (bench : solver.Bench kinds ledger ledger)
    (silent : ledger.Silent kinds ignored) (entries : Ledger.Regular kinds ledger)
    (weights : discipline.priced → ledger.Priced) (upright : solver.tableau.Upright discipline) :
    (optimize : Action Rat Unit).Leads solver fun _ after =>
      Worked kinds ignored ledger ledger solver after ∧ after.tableau.Restful discipline := by
  refine Yields.bind (leads_descend bench silent entries weights upright) ?_
  rintro _ between ⟨worked, upright', lowest⟩
  refine Yields.weaken (leads_repair worked.bench silent entries upright'.grounded
    fun steady is_priced => worked.bench.stands.ready entries upright' steady is_priced
      (lowest steady is_priced)) ?_
  rintro _ after ⟨worked', restful⟩
  exact ⟨worked.trans worked', restful⟩

/-- Neither phase touches the rows of dummies. -/
theorem leads_optimize_grounded (bench : solver.Bench kinds ledger ledger)
    (silent : ledger.Silent kinds ignored) (entries : Ledger.Regular kinds ledger)
    (weights : discipline.priced → ledger.Priced) (upright : solver.tableau.Upright discipline)
    {allowed : Symbol → Prop} (grounded : discipline.steady → solver.tableau.Grounded allowed) :
    (optimize : Action Rat Unit).Leads solver fun _ after =>
      discipline.steady → after.tableau.Grounded allowed := by
  have lowers : (descend none).Leads solver fun _ after =>
      discipline.steady → after.tableau.Grounded allowed := by
    refine Yields.descend fun steps _ _ steady => ?_
    rw [adopt_tableau]
    have settled : solver.tableau.Settled kinds ((none : Option (LinearForm Rat)).getD
        solver.tableau.objective) := bench.stands.regular.objective_settled
    have confined : ((none : Option (LinearForm Rat)).getD solver.tableau.objective).Over
        fun symbol => symbol.isExternal = false := bench.stands.regular.objective_confined
    exact (Tableau.descend_grounded bench.stands.regular bench.stands.tidy settled confined
      (grounded steady) steps).alike (Tableau.alike_told _)
  refine Yields.bind (Yields.both (leads_descend bench silent entries weights upright) lowers) ?_
  rintro _ between ⟨⟨worked, _⟩, lowered⟩
  refine Yields.repair fun steps _ steady => ?_
  rw [adopt_tableau]
  exact (Tableau.repair_grounded worked.bench.stands.regular worked.bench.stands.tidy
    (lowered steady) steps).alike (Tableau.alike_told _)

theorem leads_refreshIfAutomatic (solver : Solver Rat) :
    (refreshIfAutomatic : Action Rat Unit).Leads solver fun _ after =>
      SameBooks (fun _ => False) solver after ∧ after.symbols = solver.symbols ∧
        after.tableau = solver.tableau := by
  refine Yields.update ?_
  split
  · exact ⟨SameBooks.refresh solver, rfl, rfl⟩
  · exact ⟨SameBooks.refl _ solver, rfl, rfl⟩

/-! ## Placing a row -/

variable {form : LinearForm Rat} {artificial : Symbol} {base : Tableau Rat}
  {now : Tableau.Descent Rat} {reached : Bool}

/-- With nothing touched, filing the artificial symbol touches nothing. -/
theorem told_put (form : LinearForm Rat) (untouched : base.agenda.touched = [])
    (internal : artificial.isExternal = false) :
    (base.put artificial form).told = base.put artificial form := by
  simp [Tableau.told, Tableau.put, Agenda.touch, internal, ← untouched]

theorem negligible_iff (number : Rat) : Scalar.negligible number = true ↔ number = 0 :=
  decide_eq_true_iff

/-- The artificial symbol is no variable. -/
theorem ne_artificial (trial : Tableau.Trial kinds ledger constraint base form artificial)
    {id : Nat} (external : kinds id = .external) : id ≠ artificial.id := by
  intro same
  rw [same, ← trial.proper.2, trial.kind] at external
  exact Symbol.Kind.noConfusion external

/-- Filing the row of a trial touches nothing. -/
theorem filing_trial (bench : solver.Bench kinds ledger priced)
    (silent : Ledger.Silent kinds ignored (constraint :: ledger))
    (trial : Tableau.Trial kinds ledger constraint solver.tableau form
      (solver.symbols.draw .slack).1) : solver.Filing kinds ignored form := by
  have tells_put : solver.tableau.Tells kinds ignored
      (solver.tableau.put (solver.symbols.draw .slack).1 form) :=
    Tableau.tells_put trial.proper
      (fun is_ignored => ne_artificial trial (silent _ is_ignored).2.1 rfl) form
  have drawn := SameBooks.withSymbols ignored solver (solver.symbols.draw .slack).2
  have filed := drawn.trans (SameBooks.adopt (drawn.registers bench.registers) bench.untouched
    tells_put)
  refine ⟨filed, filed.registers bench.registers, ?_, ?_⟩
  · exact (adopt_tableau _ _).trans (told_put form bench.untouched trial.internal)
  · rw [filing, adopt_tableau]
    rfl

/-- The value of the artificial symbol is lowered. -/
theorem leads_try (trial : Tableau.Trial kinds ledger constraint base form artificial)
    (silent : Ledger.Silent kinds ignored (constraint :: ledger))
    (upright : base.Upright discipline) (registers : solver.Registers kinds)
    (filed : solver.tableau = base.put artificial form)
    (untouched : solver.tableau.agenda.touched = []) :
    (descend (some form)).Leads solver fun result after => ∃ now reached,
      Tableau.Tried discipline kinds ledger constraint base form artificial now reached ∧
        result = (reached, now.goal?) ∧ after.tableau = now.tableau ∧
          SameBooks ignored solver after ∧ after.symbols = solver.symbols ∧
            after.tableau.agenda.touched = [] := by
  refine Yields.descend fun steps reached finished => ?_
  rw [filed] at finished ⊢
  have tried := trial.tried upright finished
  have settled : (base.put artificial form).Settled kinds
      ((some form).getD (base.put artificial form).objective) := trial.settled_put
  have confined : ((some form).getD (base.put artificial form).objective).Over
      fun symbol => symbol.isExternal = false := trial.confined
  have indifferent : ∀ id, ignored id → (base.put artificial form).Indifferent id := by
    intro id is_ignored
    obtain ⟨proper, external, avoided⟩ := silent id is_ignored
    exact trial.indifferent_put proper (ne_artificial trial external) avoided
  have tells := Tableau.tells_descend trial.posed.regular_put trial.tidy_put settled confined
    indifferent steps
  refine ⟨_, reached, tried.told, rfl, adopt_tableau _ _,
    SameBooks.adopt registers untouched (by rw [filed]; exact tells), adopt_symbols _ _, ?_⟩
  rw [adopt_tableau]
  rfl

/-- The artificial symbol can always be made free. -/
theorem leads_freeArtificial
    (tried : Tableau.Tried discipline kinds ledger constraint base form artificial now reached)
    (silent : Ledger.Silent kinds ignored (constraint :: ledger))
    (registers : solver.Registers kinds) (same : solver.tableau = now.tableau)
    (untouched : solver.tableau.agenda.touched = []) :
    (freeArtificial artificial).Leads solver fun replaced after => ∃ freed,
      Tableau.Frees artificial now.tableau freed ∧ replaced = true ∧
        (after.tableau = freed ∨ after.tableau = freed.told) ∧
          SameBooks ignored solver after ∧ after.symbols = solver.symbols ∧
            after.tableau.agenda.touched = [] := by
  have indifferent : ∀ id, ignored id → (base.put artificial form).Indifferent id := by
    intro id is_ignored
    obtain ⟨proper, external, avoided⟩ := silent id is_ignored
    exact tried.trial.indifferent_put proper (ne_artificial tried.trial external) avoided
  have regular := tried.sound.equivalent.regular
  have heeds : now.tableau.Heeds ignored := regular.heeds fun id is_ignored =>
    tried.sound.equivalent.indifferent (indifferent id is_ignored)
  refine Yields.read_bind ?_
  rw [same, Tableau.take?_eq]
  cases found : now.tableau.form? artificial with
  | none =>
      exact Yields.pure ⟨now.tableau, .free found rfl, rfl, Or.inl same, .refl _ _, rfl,
        untouched⟩
  | some remaining =>
      obtain ⟨not_constant, entering, chosen⟩ := tried.exists_entering found
      simp only [Option.map_some, not_constant, chosen, Bool.false_eq_true, if_false]
      have frees := Tableau.Frees.exchanged remaining entering found chosen rfl
      obtain ⟨exchange, _⟩ := tried.trial.posed.exchange_artificial tried.sound.equivalent
        tried.trial.internal found chosen
      have equivalent := (tried.equivalent frees).1
      have heeded : ¬ ignored entering.id := by
        refine (equivalent.regular.heeds fun id is_ignored =>
          equivalent.indifferent (indifferent id is_ignored)).of_form? ?_
        rw [Tableau.form?_pivot, if_pos rfl]
        exact Option.some_ne_none _
      have tells : now.tableau.Tells kinds ignored
          ((now.tableau.discard artificial).pivot remaining entering artificial) :=
        (Tableau.tells_discard tried.trial.proper heeds.of_form?).trans
          (Tableau.tells_pivot (regular.discard artificial).proper (heeds.discard artificial)
            exchange.proper heeded remaining artificial)
      refine Yields.rework_bind (Yields.pure ⟨_, frees, rfl, Or.inr (adopt_tableau _ _),
        SameBooks.adopt registers untouched (same ▸ tells), adopt_symbols _ _, ?_⟩)
      rw [adopt_tableau]
      rfl

/-- Trying a constraint enters it, and no row of a dummy comes to mention the marker. If the trial
fails, the required entries cannot be met, and the tableau can be put right by dropping the
marker. -/
theorem leads_placeArtificially (bench : solver.Bench kinds ledger (constraint :: ledger))
    (silent : Ledger.Silent kinds ignored (constraint :: ledger))
    (trial : Tableau.Trial kinds ledger constraint solver.tableau form
      (solver.symbols.draw .slack).1)
    (upright : solver.tableau.Upright discipline) :
    (placeArtificially form).Leads solver fun placed after =>
      Worked kinds ignored (constraint :: ledger) (constraint :: ledger) solver after ∧
        (discipline.steady → after.tableau.Grounded fun symbol =>
          symbol.id ≠ constraint.markers.marker.id) ∧
        (placed = true → after.tableau.Upright discipline) ∧
        (placed = false → discipline.steady → discipline.priced →
          (∃ point, after.tableau.Poised kinds constraint.markers.marker point) ∧
            ∀ given, ¬ Ledger.Met (constraint :: ledger) given) := by
  refine Yields.read_bind (Yields.update_bind (Yields.rework_bind ?_))
  have filing := filing_trial bench silent trial
  refine Yields.bind (leads_try trial silent upright filing.registers filing.tableau
    filing.untouched) ?_
  rintro _ between ⟨now, reached, tried, rfl, same_tableau, same_books, same_symbols, untouched⟩
  have books := filing.toSameBooks.trans same_books
  refine Yields.bind (leads_freeArtificial tried silent (books.registers bench.registers)
    same_tableau untouched) ?_
  rintro _ freed_solver ⟨freed, frees, rfl, is_freed, freed_books, freed_symbols, freed_untouched⟩
  have books := books.trans freed_books
  have forgotten : (freed_solver.tableau.forget (solver.symbols.draw .slack).1).told =
      (freed.forget (solver.symbols.draw .slack).1).told := by
    rcases is_freed with result | result
    · rw [result]
    · rw [result]
      rfl
  refine Yields.rework_bind (Yields.update_bind (Yields.pure ?_))
  have books := (books.trans (SameBooks.adopt (books.registers bench.registers) freed_untouched
    (Tableau.tells_forget freed_solver.tableau (solver.symbols.draw .slack).1))).trans
      (SameBooks.withSymbols ignored _ solver.symbols)
  have alike := (freed.forget (solver.symbols.draw .slack).1).alike_told
  have is_tableau : (freed_solver.adopt (freed_solver.tableau.forget
      ⟨solver.symbols.last + 1, .slack⟩)).tableau =
        (freed.forget (solver.symbols.draw .slack).1).told :=
    (adopt_tableau _ _).trans forgotten
  -- The trial counts as a success if the lowered goal has come down to zero.
  obtain ⟨goal, is_goal⟩ : ∃ goal, now.goal? = some goal :=
    Option.isSome_iff_exists.mp tried.sound.goal_isSome
  have goal_eq : now.goal = goal := by rw [Tableau.Descent.goal, is_goal]; rfl
  have decided : (reached && (now.goal?.any fun goal => Scalar.negligible goal.constant) && true) =
      true ↔ reached = true ∧ now.goal.constant = 0 := by
    rw [is_goal, Option.any_some, Bool.and_true, Bool.and_eq_true, negligible_iff, goal_eq]
  refine ⟨⟨books, rfl, books.registers bench.registers, ?_, ?_⟩, fun steady => ?_,
    fun placed => ?_, fun missed steady is_priced => ?_⟩
  · dsimp only
    rw [is_tableau]
    exact (tried.stands frees).told
  · dsimp only
    rw [is_tableau]
    rfl
  · dsimp only
    rw [is_tableau]
    exact (tried.grounded_forget frees steady).alike alike
  · dsimp only
    rw [is_tableau]
    exact (tried.upright frees (decided.mp placed).2).alike alike
  · have failed : ¬ (reached = true ∧ now.goal.constant = 0) := fun both => by
      rw [decided.mpr both] at missed
      exact Bool.noConfusion missed
    dsimp only
    rw [is_tableau]
    refine ⟨?_, tried.not_met steady is_priced failed⟩
    obtain ⟨point, poised⟩ := tried.exists_poised frees steady is_priced
    exact ⟨point, poised.alike alike⟩

/-- What comes of looking for a place for the row of a constraint. -/
inductive Placing (discipline : Discipline) (kinds : Nat → Symbol.Kind) (ignored : Nat → Prop)
    (ledger : Ledger) (constraint : Constraint Rat) (form : LinearForm Rat)
    (solver : Solver Rat) : Except Refusal Unit → Solver Rat → Prop where
  | placed {after : Solver Rat}
      (worked : Worked kinds ignored (constraint :: ledger) (constraint :: ledger) solver after)
      (upright : after.tableau.Upright discipline)
      (grounded : discipline.steady → after.tableau.Grounded fun symbol =>
        symbol.id ≠ constraint.markers.marker.id) :
      Placing discipline kinds ignored ledger constraint form solver (.ok ()) after
  | unsatisfied (confined : form.Over fun symbol => symbol.isExternal = false)
      (not_met : ∀ given, ¬ Ledger.Met (constraint :: ledger) given) :
      Placing discipline kinds ignored ledger constraint form solver (.error .unsatisfied) solver
  | unbound {after : Solver Rat} (confined : form.Over fun symbol => symbol.isExternal = false)
      (worked : Worked kinds ignored (constraint :: ledger) (constraint :: ledger) solver after)
      (grounded : discipline.steady → after.tableau.Grounded fun symbol =>
        symbol.id ≠ constraint.markers.marker.id)
      (poised : discipline.steady → discipline.priced →
        ∃ point, after.tableau.Poised kinds constraint.markers.marker point)
      (not_met : discipline.steady → discipline.priced →
        ∀ given, ¬ Ledger.Met (constraint :: ledger) given) :
      Placing discipline kinds ignored ledger constraint form solver (.error .unbound) after

theorem leads_place (bench : solver.Bench kinds ledger (constraint :: ledger))
    (silent : Ledger.Silent kinds ignored (constraint :: ledger))
    (draft : solver.tableau.Draft kinds ledger constraint form)
    (artificial_proper : (solver.symbols.draw .slack).1.Proper kinds)
    (artificial_avoided : ∀ entry ∈ constraint :: ledger,
      entry.Avoids (solver.symbols.draw .slack).1.id)
    (upright : solver.tableau.Upright discipline) :
    (place form constraint.markers).Leads solver
      (Placing discipline kinds ignored ledger constraint form solver) := by
  have heeds : solver.tableau.Heeds ignored :=
    bench.stands.regular.heeds (silent.tail.indifferent bench.stands.means)
  have pivoted : ∀ subject : Symbol, subject.Proper kinds →
      (solver.tableau.pivot form subject Symbol.null).Entered discipline kinds ledger
        constraint →
      Placing discipline kinds ignored ledger constraint form solver (.ok ())
        (solver.adopt (solver.tableau.pivot form subject Symbol.null)) := by
    intro subject proper entered
    have stands := entered.stands
    have heeded : ¬ ignored subject.id := by
      refine (stands.regular.heeds (silent.indifferent stands.means)).of_form? ?_
      rw [Tableau.form?_pivot, if_pos rfl]
      exact Option.some_ne_none _
    refine .placed (bench.adopt (Tableau.tells_pivot bench.stands.regular.proper heeds proper
      heeded form Symbol.null) stands) ?_ fun steady => ?_
    · rw [adopt_tableau]
      exact entered.upright.alike (Tableau.alike_told _)
    · rw [adopt_tableau]
      exact (entered.grounded steady).alike (Tableau.alike_told _)
  unfold place
  cases chosen : form.subject? [constraint.markers.marker, constraint.markers.other] with
  | some subject =>
      obtain ⟨proper, entered⟩ := draft.enter_subject upright chosen
      exact Yields.rework_bind (Yields.pure (pivoted subject proper entered))
  | none =>
      have confined := (LinearForm.of_subject?_eq_none chosen).1
      dsimp only
      split
      · rename_i only
        split
        · rename_i vanishes
          exact Yields.rework_bind (Yields.pure (pivoted _
            draft.entries.head.markers.marker_proper
            (draft.enter_dummy upright only ((negligible_iff _).mp vanishes))))
        · rename_i remains
          exact Yields.pure (.unsatisfied confined
            (draft.not_met_of_dummies only fun zero => remains ((negligible_iff _).mpr zero)))
      · rename_i others
        have trial : Tableau.Trial kinds ledger constraint solver.tableau form
            (solver.symbols.draw .slack).1 :=
          ⟨draft, confined, by simpa using others, artificial_proper, rfl, artificial_avoided⟩
        refine Yields.bind (leads_placeArtificially bench silent trial upright) ?_
        rintro placed after ⟨worked, grounded, succeeded, failed⟩
        cases placed with
        | true => exact Yields.pure (.placed worked (succeeded rfl) grounded)
        | false =>
            exact Yields.pure (.unbound confined worked grounded
              (fun steady is_priced => (failed rfl steady is_priced).1)
              fun steady is_priced => (failed rfl steady is_priced).2)

end Action

end SoftSimplex
