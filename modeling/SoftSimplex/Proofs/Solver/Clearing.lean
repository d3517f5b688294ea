import SoftSimplex.Proofs.Solver.Caches
import SoftSimplex.Proofs.Solver.Release
import SoftSimplex.Proofs.Solver.Teardown

/-!
# Emptying the tableau at once, and piece by piece

A full reset leaves the same variables, with the same references, and the same constraints as ending
every edit and withdrawing every live constraint, in any order. Both leave an empty tableau.

They differ in the cached values. Whoever takes the last row away from a variable marks it, so that
the next refresh brings its value to zero. Emptying the tableau takes all rows away and marks
nobody. The caches keep the values of the last rows.
-/

namespace SoftSimplex

variable {solver other after : Solver Rat} {issued : Nat → Prop} {command : Command Rat}
  {steps : Nat}

namespace Solver

/-- No constraint is live, no variable is edited, and the tableau is empty. -/
structure Bare (solver : Solver Rat) : Prop where
  live : solver.live = []
  unedited : ∀ symbol state, solver.unknowns.get? symbol = some state → state.edit = none
  rowless : solver.rowCount = 0
  termless : solver.tableau.objective.terms = []

namespace Bare

theorem of_settled (settled : solver.Settled ⟨false, false⟩ issued) (none_live : solver.live = []) :
    solver.Bare := by
  obtain ⟨_, _, standing, editing⟩ := settled
  obtain ⟨rowless, termless⟩ := standing.vacant none_live
  refine ⟨none_live, fun symbol state found => edit_eq_none found fun key target edits => ?_,
    rowless, termless⟩
  exact solver.live_eq_nil_iff.mp none_live key.id (editing.lives edits)

variable (bare : solver.Bare)

include bare

theorem not_edits (symbol key : Symbol) (target : Rat) : ¬ solver.Edits symbol key target := by
  rintro ⟨state, found, edit, _⟩
  exact Option.some_ne_none key (edit.symm.trans (bare.unedited symbol state found))

theorem value_eq_zero (symbol : Symbol) : solver.tableau.value symbol = 0 := by
  have no_rows : solver.tableau.equations = [] := by
    rw [← List.length_eq_zero_iff, ← Tableau.rows_size_eq]
    exact bare.rowless
  have no_form : solver.tableau.form? symbol = none := by
    rw [Tableau.form?_eq_none_iff, no_rows]
    exact fun row member => absurd member List.not_mem_nil
  rw [Tableau.value, no_form]
  rfl

/-- No constraint has markers. -/
theorem unmarked (settled : solver.Settled ⟨false, false⟩ issued) (key : Symbol) :
    (solver.constraints.get? key).map Constraint.unmarked = solver.constraints.get? key := by
  cases found : solver.constraints.get? key with
  | none => rfl
  | some constraint =>
      obtain ⟨_, _, standing, _⟩ := settled
      have idle : constraint.isActive = false := by
        by_contra active
        exact solver.live_eq_nil_iff.mp bare.live key.id
          ((solver.lives_iff key).mpr ⟨constraint, found, by simpa using active⟩)
      rw [Option.map_some, Constraint.unmarked,
        ← standing.inactive key constraint found idle]

/-- All registered constraints were issued. -/
theorem get?_of_unissued (settled : solver.Settled ⟨false, false⟩ issued) {key : Symbol}
    (unissued : ¬ issued key.id) : solver.constraints.get? key = none := by
  obtain ⟨_, _, _, editing⟩ := settled
  rw [Option.eq_none_iff_forall_ne_some]
  intro constraint found
  rcases editing.claimed key constraint found with is_issued | impossible | hidden
  · exact unissued is_issued
  · exact impossible
  · obtain ⟨symbol, edit, target, edits, _⟩ := hidden
    exact bare.not_edits symbol edit target edits

end Bare

theorem live_emptied (solver : Solver Rat) : solver.emptied.live = [] := by
  rw [live_eq_nil_iff]
  rintro id ⟨constraint, found, active⟩
  rw [isActive_emptied found] at active
  exact Bool.noConfusion active

/-- When nobody waits, all caches are up to date. -/
theorem Aware.upToDate_of_fresh (aware : solver.Aware) (fresh : solver.stale = []) :
    solver.UpToDate := by
  intro symbol state found
  apply aware.cached symbol state found
  have counted := aware.queued symbol state found
  rw [fresh] at counted
  cases stale : state.isStale with
  | false => rfl
  | true => simp [stale] at counted

/-- What lasts of the variables has been spared, and so has what is written in the constraints that
were issued. -/
structure Preserves (issued : Nat → Prop) (solver after : Solver Rat) : Prop where
  lasting : ∀ symbol, after.lasting symbol = solver.lasting symbol
  written : ∀ key : Symbol, issued key.id → (after.constraints.get? key).map Constraint.unmarked =
    (solver.constraints.get? key).map Constraint.unmarked

/-- The same variables, referred to by as many, and the same constraints are registered. -/
structure SameRegisters (solver other : Solver Rat) : Prop where
  references : ∀ symbol, solver.references symbol = other.references symbol
  constraints : ∀ key, solver.constraints.get? key = other.constraints.get? key

theorem Preserves.refl (issued : Nat → Prop) (solver : Solver Rat) :
    Preserves issued solver solver :=
  ⟨fun _ => rfl, fun _ _ => rfl⟩

theorem Preserves.trans {between : Solver Rat} (preserves : Preserves issued solver between)
    (preserves' : Preserves issued between after) : Preserves issued solver after where
  lasting symbol := (preserves'.lasting symbol).trans (preserves.lasting symbol)
  written key is_issued :=
    (preserves'.written key is_issued).trans (preserves.written key is_issued)

theorem Preserves.refresh (issued : Nat → Prop) (solver : Solver Rat) :
    Preserves issued solver solver.refresh :=
  ⟨solver.lasting_refresh, fun _ _ => rfl⟩

theorem Preserves.emptied (issued : Nat → Prop) (solver : Solver Rat) :
    Preserves issued solver solver.emptied := by
  refine ⟨fun _ => rfl, fun key _ => ?_⟩
  rw [get?_emptied, Option.map_map]
  rfl

/-- Two bare solvers that have preserved the same have the same registers. -/
theorem Preserves.sameRegisters {first second : Solver Rat}
    (preserves : Preserves issued solver first) (preserves' : Preserves issued solver second)
    (settled : first.Settled ⟨false, false⟩ issued)
    (settled' : second.Settled ⟨false, false⟩ issued) (bare : first.Bare) (bare' : second.Bare) :
    SameRegisters first second := by
  constructor
  · intro symbol
    rw [← lasting_of_unedited (bare.not_edits symbol),
      ← lasting_of_unedited (bare'.not_edits symbol), preserves.lasting, preserves'.lasting]
  · intro key
    by_cases is_issued : issued key.id
    · rw [← bare.unmarked settled, ← bare'.unmarked settled', preserves.written key is_issued,
        preserves'.written key is_issued]
    · rw [bare.get?_of_unissued settled is_issued, bare'.get?_of_unissued settled' is_issued]

end Solver

namespace Command

open Solver

/-- A command by which the owner ends an edit or withdraws a constraint. -/
def detaches (identity : Nat) : Command Rat → Bool
  | withdrawConstraint handle => handle.owner == identity
  | endEdit handle => handle.owner == identity
  | _ => false

theorem removes_of_detaches {identity : Nat} (detaches : command.detaches identity = true) :
    command.removes identity = true := by
  cases command with
  | withdrawConstraint handle => exact detaches
  | endEdit handle => exact detaches
  | _ => exact Bool.noConfusion detaches

theorem empties_of_detaches {identity : Nat} (detaches : command.detaches identity = true) :
    command.empties = false := by
  cases command with
  | reset dropConstraints => exact Bool.noConfusion detaches
  | _ => rfl

/-- Detaching spares what lasts and what is written. -/
theorem preserves_of_detaches (settled : solver.Settled ⟨false, false⟩ issued)
    (own : ∀ handle ∈ command.named, solver.Issued issued handle)
    (detaches : command.detaches solver.identity = true) :
    command.action.Leads solver fun _ after => Preserves issued solver after := by
  have finished : ∀ {request : Action Rat Unit} {kept : Solver Rat → Prop},
      (request.Leads solver fun _ after => kept after) →
        (action.finish request).Leads solver fun _ after => kept after :=
    fun leads => .bind leads fun _ _ holds => .pure holds
  cases command with
  | withdrawConstraint handle =>
      have owned : handle.owner = solver.identity := by simpa [Command.detaches] using detaches
      have withdraws := Action.leads_withdrawConstraint settled (own handle List.mem_cons_self)
        (fun steady => nomatch steady)
      refine finished (.weaken
        ((Action.leads_withdrawConstraint_lasting settled handle).both withdraws) ?_)
      rintro _ after ⟨lasts, touched, withdrawn⟩
      refine ⟨lasts, fun key is_issued => ?_⟩
      by_cases same : key.id = handle.key.id
      · rw [after.constraints.get?_congr same, solver.constraints.get?_congr same, withdrawn owned,
          Option.map_map]
        rfl
      · rw [touched.constraints key ⟨is_issued, same⟩]
  | endEdit handle =>
      refine finished (.weaken ((Action.leads_endEdit_lasting settled handle).both
        (Action.leads_endEdit settled handle)) ?_)
      rintro _ after ⟨lasts, _, spares, _⟩
      exact ⟨lasts, fun key is_issued => congrArg _ (spares.constraints key is_issued)⟩
  | _ => exact Bool.noConfusion detaches

end Command

namespace Course

variable {course last : Course Rat} {commands removals : List (Command Rat)}
  {discipline : Discipline}

/-- What is left standing piece by piece. -/
theorem Runs.preserves (runs : course.Runs (Allows ⟨false, false⟩) removals last)
    (reached : course.Reached ⟨false, false⟩)
    (detaches : ∀ command ∈ removals, command.detaches course.solver.identity = true) :
    Solver.Preserves (· ∈ course.issued) course.solver last.solver ∧
      last.issued = course.issued := by
  induction runs with
  | nil course => exact ⟨.refl _ _, rfl⟩
  | @cons course last command steps commands allowed rest inductionHypothesis =>
      have detached := detaches command List.mem_cons_self
      obtain ⟨dwindled, _, same⟩ :=
        reached.next_dwindled allowed (Command.removes_of_detaches detached)
      have preserves : Solver.Preserves (· ∈ course.issued) course.solver
          (course.next command steps).solver :=
        Solver.perform_of_final (Action.Meets.mono
          (Command.preserves_of_detaches reached.settled allowed.own detached) (fun _ _ => id)
            (fun _ _ => False.elim) fun _ => id) allowed.final
      obtain ⟨preserves', same'⟩ := inductionHypothesis (reached.step allowed)
        fun later member => by
          rw [show (course.next command steps).solver.identity = course.solver.identity from
            dwindled.identity]
          exact detaches later (List.mem_cons_of_mem _ member)
      rw [same] at preserves' same'
      exact ⟨preserves.trans preserves', same'⟩

end Course

/-- A full reset ends as a reset in part does, and if that is with an answer, it leaves the same
solver with an empty tableau. -/
theorem Solver.perform_reset_true (solver : Solver Rat) (steps : Nat) :
    (solver.perform (.reset true) steps).1 = (solver.perform (.reset false) steps).1 ∧
      ∀ reply, (solver.perform (.reset false) steps).1 = .answered reply →
        (solver.perform (.reset true) steps).2 =
          (solver.perform (.reset false) steps).2.emptied := by
  unfold perform
  simp only [Command.action, Command.action.finish, Action.reset_true_eq, bind, EStateM.bind]
  cases Action.reset false ⟨solver, steps⟩ with
  | ok result session => exact ⟨rfl, fun _ _ => rfl⟩
  | error interrupt session =>
      cases interrupt with
      | refused reason => exact ⟨rfl, fun _ impossible => Ending.noConfusion impossible⟩
      | paused => exact ⟨rfl, fun _ impossible => Ending.noConfusion impossible⟩

/-- A reset in part is never refused, ends all edits, and spares the rest. -/
theorem Command.leads_reset_false (settled : solver.Settled ⟨false, false⟩ issued) :
    (Command.reset false).action.Leads solver fun reply after => reply = .done ∧
      after.Settled ⟨false, false⟩ issued ∧ (∀ symbol key target, ¬ after.Edits symbol key target) ∧
        Solver.Preserves issued solver after ∧ after.stale = [] := by
  refine .bind ((Action.leads_reset settled false).both (Action.leads_reset_lasting settled)) ?_
  rintro _ after ⟨⟨settled', unedited, spares⟩, fresh, lasts⟩
  exact .pure ⟨rfl, settled', unedited, ⟨lasts, fun key is_issued =>
    congrArg _ ((spares rfl).constraints key is_issued)⟩, fresh⟩

namespace Course

variable {course last : Course Rat} {commands removals : List (Command Rat)}
  {discipline : Discipline}

/-- Awareness of the caches is kept by all commands but a full reset. -/
theorem Runs.aware (runs : course.Runs (Allows discipline) commands last)
    (fills : ∀ command ∈ commands, command.empties = false)
    (accountable : course.solver.Accountable) (aware : course.solver.Aware) :
    last.solver.Accountable ∧ last.solver.Aware := by
  induction runs with
  | nil => exact ⟨accountable, aware⟩
  | @cons course last command steps commands allowed rest inductionHypothesis =>
      have minded : course.solver.Minded (course.next command steps).solver :=
        Solver.perform_of_final (Command.minds Rational.dependable_exact.lowered_counts
          (fills command List.mem_cons_self) accountable) allowed.final
      exact inductionHypothesis (fun later member => fills later (List.mem_cons_of_mem _ member))
        minded.accountable (minded.aware aware)

/-- The tableau has never been emptied at once. -/
def Unemptied (course : Course Rat) : Prop :=
  ∃ identity options commands, (∀ command ∈ commands, command.empties = false) ∧
    (start identity options).Runs (Allows ⟨false, false⟩) commands course

theorem Unemptied.aware (unemptied : course.Unemptied) :
    course.solver.Accountable ∧ course.solver.Aware := by
  obtain ⟨identity, options, commands, fills, runs⟩ := unemptied
  exact runs.aware fills ⟨_, Solver.Accounted.new identity options⟩
    (Solver.Aware.new identity options)

/-- A course after a reset in part, and after a full reset of as many steps. -/
theorem Reached.resets (reached : course.Reached ⟨false, false⟩)
    (final : (course.solver.perform (.reset true) steps).1.isFinal = true) :
    let partly := (course.solver.perform (.reset false) steps).2
    (course.solver.perform (.reset true) steps).2 = partly.emptied ∧
      partly.Settled ⟨false, false⟩ (· ∈ course.issued) ∧
      (∀ symbol key target, ¬ partly.Edits symbol key target) ∧
      Solver.Preserves (· ∈ course.issued) course.solver partly ∧ partly.stale = [] ∧
      (course.solver.perform (.reset false) steps).1.isFinal = true := by
  obtain ⟨same, empties⟩ := course.solver.perform_reset_true steps
  have ends := (Command.leads_reset_false reached.settled).perform steps
  rw [same] at final
  revert ends
  cases ending : (course.solver.perform (.reset false) steps).1 with
  | answered reply =>
      rintro ⟨_, settled, unedited, preserves, fresh⟩
      exact ⟨empties reply ending, settled, unedited, preserves, fresh, rfl⟩
  | refused reason => exact False.elim
  | paused => exact Bool.noConfusion (ending ▸ final)

end Course

/-! ## Both ways -/

open Solver in
/-- In every state a full reset leaves the same registers as ending every edit and withdrawing every
live constraint, in any order, and then refreshing. Both leave a bare solver. In histories that
never emptied the tableau at once, the second way brings all values to zero. The full reset leaves
them as the tableau has them when all edits have ended and the constraints are still live. -/
theorem clearing_matches_detaching {course last : Course Rat}
    (reached : course.Reached ⟨false, false⟩) {removals : List (Command Rat)}
    (runs : course.Runs (Course.Allows ⟨false, false⟩) removals last)
    (detaches : ∀ command ∈ removals, command.detaches course.solver.identity = true)
    (covers : course.Covers removals)
    (final : (course.solver.perform (.reset true) steps).1.isFinal = true) :
    let cleared := (course.solver.perform (.reset true) steps).2
    let partly := (course.solver.perform (.reset false) steps).2
    let detached := last.solver.refresh
    cleared.Bare ∧ detached.Bare ∧ SameRegisters cleared detached ∧
      (course.Unemptied →
        (∀ symbol state, detached.unknowns.get? symbol = some state → state.value = 0) ∧
        ∀ symbol state, cleared.unknowns.get? symbol = some state →
          state.value = partly.tableau.value symbol) := by
  obtain ⟨is_emptied, settled, unedited, preserves, fresh, final'⟩ := reached.resets final
  obtain ⟨preserves', same⟩ := runs.preserves reached detaches
  have settled' := Course.Reached.settled (reached.runs runs)
  rw [same] at settled'
  have none_live := runs.live_eq_nil reached
    (fun command member => Command.removes_of_detaches (detaches command member)) covers
  have bare := Bare.of_settled (settled.emptied unedited) (live_emptied _)
  have none_live' : last.solver.refresh.live = [] :=
    (live_eq_nil_iff _).mpr (last.solver.live_eq_nil_iff.mp none_live)
  have bare' := Bare.of_settled settled'.refresh none_live'
  dsimp only
  rw [is_emptied]
  refine ⟨bare, bare', (preserves.trans (.emptied _ _)).sameRegisters
    (preserves'.trans (.refresh _ _)) (settled.emptied unedited) settled'.refresh bare bare',
    fun unemptied => ⟨fun symbol state found => ?_, fun symbol state found => ?_⟩⟩
  · obtain ⟨accountable, aware⟩ := unemptied.aware
    have aware' := (runs.aware (fun command member =>
      Command.empties_of_detaches (detaches command member)) accountable aware).2
    rw [aware'.upToDate_refresh symbol state found, bare'.value_eq_zero]
  · obtain ⟨accountable, aware⟩ := unemptied.aware
    have minded : course.solver.Minded (course.solver.perform (.reset false) steps).2 :=
      perform_of_final (Command.minds Rational.dependable_exact.lowered_counts rfl accountable)
        final'
    exact (minded.aware aware).upToDate_of_fresh fresh symbol state found

/-- Commands that detach everything from the solver with a mingled history. -/
def Command.detaching : List (Command Rat) :=
  [.withdrawConstraint ⟨6, 0⟩, .endEdit ⟨1, 0⟩, .withdrawConstraint ⟨2, 0⟩,
    .withdrawConstraint ⟨5, 0⟩, .withdrawConstraint ⟨3, 0⟩]

theorem unemptied_mingled : mingled.Unemptied := by
  have first : (Course.start 0 {}).Runs (Course.Allows ⟨false, false⟩) _ twinned :=
    Course.runs_follow (by decide +kernel)
  have second : twinned.Runs (Course.Allows ⟨false, false⟩) _ parted :=
    Course.runs_follow (by decide +kernel)
  have third : parted.Runs (Course.Allows ⟨false, false⟩) _ mingled :=
    Course.runs_follow (by decide +kernel)
  exact ⟨0, {}, _, by decide +kernel, (first.append second).append third⟩

theorem clearing_matches_detaching_mingled :
    let cleared := (mingled.solver.perform (.reset true) 20).2
    let partly := (mingled.solver.perform (.reset false) 20).2
    let detached := (mingled.follow 20 Command.detaching).solver.refresh
    cleared.Bare ∧ detached.Bare ∧ Solver.SameRegisters cleared detached ∧
      (∀ symbol state, detached.unknowns.get? symbol = some state → state.value = 0) ∧
        ∀ symbol state, cleared.unknowns.get? symbol = some state →
          state.value = partly.tableau.value symbol := by
  have runs : mingled.Runs (Course.Allows ⟨false, false⟩) Command.detaching
      (mingled.follow 20 Command.detaching) := Course.runs_follow (by decide +kernel)
  have final : (mingled.solver.perform (.reset true) 20).1.isFinal = true := by decide +kernel
  obtain ⟨bare, bare', same, values⟩ := clearing_matches_detaching reached_mingled runs
    (by decide +kernel) (by decide +kernel) final
  exact ⟨bare, bare', same, values unemptied_mingled⟩

/-- A variable that is required to be five. -/
def pinned : Course Rat :=
  (Course.start 0 {}).follow 20 (.createVariable :: Command.bound 1 .equal 5 ++ [.refresh])

/-- The pinned variable is still five after a full reset, and zero once its constraint has been
withdrawn. -/
theorem clearing_keeps_value :
    ¬ ∀ (course last : Course Rat) (removals : List (Command Rat)) (steps : Nat),
      course.Reached ⟨false, false⟩ → course.Runs (Course.Allows ⟨false, false⟩) removals last →
      (∀ command ∈ removals, command.detaches course.solver.identity = true) →
      course.Covers removals → (course.solver.perform (.reset true) steps).1.isFinal = true →
        ∀ handle, (course.solver.perform (.reset true) steps).2.valueOf handle =
          last.solver.refresh.valueOf handle := by
  intro agree
  have reached : pinned.Reached ⟨false, false⟩ :=
    (Course.Arises.start 0 {}).follow (by decide +kernel)
  have runs : pinned.Runs (Course.Allows ⟨false, false⟩) [.withdrawConstraint ⟨1, 0⟩]
      (pinned.follow 20 [.withdrawConstraint ⟨1, 0⟩]) := Course.runs_follow (by decide +kernel)
  have same := agree pinned _ _ 20 reached runs (by decide +kernel) (by decide +kernel)
    (by decide +kernel) ⟨1, 0⟩
  revert same
  decide +kernel

end SoftSimplex
