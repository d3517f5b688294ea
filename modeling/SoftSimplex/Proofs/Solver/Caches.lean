import SoftSimplex.Proofs.Solver.Coherence

/-!
# Coherent caches

However the arithmetic rounds, a solver whose tableau is never emptied knows which of its caches are
out of date. So a refresh brings all of them up to date, and a second one changes nothing.

A solver that refreshes without being asked for keeps all caches up to date as long as no constraint
is refused after pivoting. Such a refusal moves solved values without a refresh.
-/

namespace SoftSimplex

variable {α : Type} [Scalar α] {kinds : Nat → Symbol.Kind} {solver after : Solver α}
  {course : Course α}

namespace Solver

/-- Everything is accounted for, and the solver knows its caches if it did before. -/
structure Minded (solver after : Solver α) : Prop where
  accountable : after.Accountable
  aware : solver.Aware → after.Aware

theorem Kept.minded (kept : Kept solver after) : Minded solver after :=
  ⟨kept.accountable, kept.aware⟩

theorem Spared.minded {reason : Refusal} (spared : Spared solver reason after) :
    Minded solver after :=
  ⟨spared.accountable, spared.aware⟩

/-- It does not matter to the caches when they are refreshed. -/
theorem Accountable.minded_autoUpdate (accountable : solver.Accountable) (autoUpdate : Bool) :
    Minded solver { solver with autoUpdate } :=
  ⟨Action.accounts_setAutoUpdate autoUpdate solver accountable 0,
    SameCaches.aware (.of_eq rfl rfl fun _ => rfl)⟩

end Solver

namespace Command

/-- The command makes all constraints inactive at once. -/
def empties : Command α → Bool
  | reset true => true
  | _ => false

theorem minds (unit : Scalar.negligible (0 + -1 : α) = false) {command : Command α}
    (fills : command.empties = false) (accountable : solver.Accountable) :
    command.action.Meets solver (fun _ after => solver.Minded after)
      (fun _ after => solver.Minded after) Solver.InOrder := by
  have of_keeps : command.action.Keeps → command.action.Meets solver
      (fun _ after => solver.Minded after) (fun _ after => solver.Minded after) Solver.InOrder :=
    fun keeps => (keeps solver accountable).mono (fun _ _ => Solver.Kept.minded)
      (fun _ _ => Solver.Spared.minded) fun _ => id
  by_cases plain : command.Plain
  · exact of_keeps (Command.keeps unit plain)
  · cases command with
    | suggest handle target =>
        have begins := Action.keeps_beginEdit unit handle Strength.medium solver accountable
        have suggests : (Action.suggest handle target).Meets solver
            (fun _ after => solver.Minded after) (fun _ after => solver.Minded after)
              Solver.InOrder := by
          apply (Action.meets_suggest accountable (fun _ _ _ => begins) target).mono
          · rintro _ after (kept | ⟨reason, spared⟩)
            · exact kept.minded
            · exact spared.minded
          · exact fun _ _ => Solver.Spared.minded
          · exact fun _ => id
        exact Action.Meets.bind suggests fun _ _ minded => Action.Meets.pure minded
    | reset dropConstraints =>
        cases dropConstraints with
        | false => exact of_keeps (Action.keeps_reset.bind fun _ => .pure _)
        | true => exact Bool.noConfusion fills
    | setAutoUpdate autoUpdate =>
        exact Action.Meets.update_bind
          (Action.Meets.pure (accountable.minded_autoUpdate autoUpdate))
    | _ => exact absurd trivial plain

end Command

namespace Course

/-- The command comes to an end and leaves the tableau its rows. -/
def Continues (course : Course α) (command : Command α) (steps : Nat) : Prop :=
  (course.solver.perform command steps).1.isFinal = true ∧ command.empties = false

instance (course : Course α) (command : Command α) (steps : Nat) :
    Decidable (course.Continues command steps) :=
  inferInstanceAs (Decidable (_ ∧ _))

theorem Arises.aware (unit : Scalar.negligible (0 + -1 : α) = false)
    (arises : course.Arises Continues) : course.solver.Accountable ∧ course.solver.Aware := by
  induction arises with
  | start identity options => exact ⟨⟨_, .new identity options⟩, .new identity options⟩
  | step _ continues inductionHypothesis =>
      obtain ⟨accountable, aware⟩ := inductionHypothesis
      have minded := Solver.perform_of_final (Command.minds unit continues.2 accountable)
        continues.1
      exact ⟨minded.accountable, minded.aware aware⟩

end Course

namespace Solver

/-- A registered variable is marked exactly if it waits for a refresh, and then it waits once. The
cache of any other holds the constant of its row, or zero if it has none. -/
structure CoherentCaches (solver : Solver α) : Prop where
  marked : ∀ id state, solver.unknowns.get? ⟨id, .external⟩ = some state →
    (state.isStale = true ↔ ⟨id, .external⟩ ∈ solver.stale)
  once : ∀ id state, solver.unknowns.get? ⟨id, .external⟩ = some state →
    ⟨id, .external⟩ ∈ solver.stale → solver.stale.count ⟨id, .external⟩ = 1
  cached : ∀ id state, solver.unknowns.get? ⟨id, .external⟩ = some state →
    state.isStale = false → state.value = solver.tableau.value ⟨id, .external⟩

/-- Whoever bears the number of a registered variable in the queue is that variable. -/
theorem Accounted.count_stale (accounted : solver.Accounted kinds) {id : Nat} {state : Variable α}
    (found : solver.unknowns.get? ⟨id, .external⟩ = some state) :
    solver.stale.count ⟨id, .external⟩ = (solver.stale.map Symbol.id).count id := by
  obtain ⟨proper, external, _⟩ := accounted.registered _ state found
  rw [List.count_eq_countP, List.count_eq_countP, List.countP_map]
  apply List.countP_congr
  intro waiting member
  have kind := (accounted.waiting waiting member).1.2
  simp only [beq_iff_eq, Function.comp_apply]
  constructor
  · rintro rfl
    rfl
  · rintro rfl
    exact congrArg (Symbol.mk waiting.id) (kind.trans external)

theorem Accounted.coherentCaches (accounted : solver.Accounted kinds) (aware : solver.Aware) :
    solver.CoherentCaches := by
  constructor
  · intro id state found
    rw [← List.count_pos_iff, accounted.count_stale found, aware.queued _ state found]
    cases state.isStale <;> simp
  · intro id state found member
    rw [← List.count_pos_iff, accounted.count_stale found, aware.queued _ state found] at member
    rw [accounted.count_stale found, aware.queued _ state found]
    cases stale : state.isStale <;> simp_all
  · exact fun id state => aware.cached _ state

end Solver

/-- In every history that never empties the tableau the caches are coherent. A refresh brings them
up to date, and a second one changes nothing. -/
theorem caches_coherent (unit : Scalar.negligible (0 + -1 : α) = false)
    (arises : course.Arises Course.Continues) :
    course.solver.CoherentCaches ∧ ∀ steps,
      (course.solver.perform .refresh steps).2.UpToDate ∧
      ∀ steps', ((course.solver.perform .refresh steps).2.perform .refresh steps').2 =
        (course.solver.perform .refresh steps).2 := by
  obtain ⟨⟨_, accounted⟩, aware⟩ := arises.aware unit
  exact ⟨accounted.coherentCaches aware, fun _ => ⟨aware.upToDate_refresh, fun _ => rfl⟩⟩

/-- Commands that create a required bound of the first variable. -/
def Command.bounding (id : Nat) (relation : Relation) (number : Nat) : List (Command α) :=
  [createConstraint .required, addTerm ⟨id, 0⟩ ⟨1, 0⟩ 1, setRelation ⟨id, 0⟩ relation,
    addConstant ⟨id, 0⟩ (number : α)]

/-- A variable between one and ten, and a bound of twenty that has not been added. -/
def Command.overreaching : List (Command α) :=
  createVariable :: (bounding 1 .atLeast 1 ++ addConstraint ⟨1, 0⟩ :: bounding 2 .atMost 10 ++
    addConstraint ⟨2, 0⟩ :: bounding 3 .atLeast 20)

/-- A solver of double-precision numbers after some commands. -/
def afterDouble (autoUpdate : Bool) (commands : List (Command Float)) : Course Float :=
  (Course.start 0 ⟨autoUpdate, 1⟩).follow 20 commands

theorem arises_afterDouble {admits : Course Float → Command Float → Nat → Prop}
    {autoUpdate : Bool} {commands : List (Command Float)}
    (admitted : (Course.start 0 ⟨autoUpdate, 1⟩).Admits admits 20 commands) :
    (afterDouble autoUpdate commands).Arises admits :=
  (Course.Arises.start 0 ⟨autoUpdate, 1⟩).follow admitted

/-- The bound is refused. -/
theorem caches_coherent_refused :
    let solver := (afterDouble false (Command.overreaching ++ [.addConstraint ⟨3, 0⟩])).solver
    solver.CoherentCaches ∧ ∀ steps, (solver.perform .refresh steps).2.UpToDate ∧
      ∀ steps', ((solver.perform .refresh steps).2.perform .refresh steps').2 =
        (solver.perform .refresh steps).2 :=
  caches_coherent Binary64.dependable.lowered_counts (arises_afterDouble (by decide +kernel))

namespace Course

/-- Caches are refreshed without being asked for, and the command comes to an end and leaves the
tableau its rows. -/
def Prompts (course : Course α) (command : Command α) (steps : Nat) : Prop :=
  course.solver.autoUpdate = true ∧ course.Continues command steps

instance (course : Course α) (command : Command α) (steps : Nat) :
    Decidable (course.Prompts command steps) :=
  inferInstanceAs (Decidable (_ ∧ _))

/-- What is more, the command is not refused after pivoting. -/
def PromptsCalmly (course : Course α) (command : Command α) (steps : Nat) : Prop :=
  course.Prompts command steps ∧ (course.solver.perform command steps).1 ≠ .refused .unbound

instance (course : Course α) (command : Command α) (steps : Nat) :
    Decidable (course.PromptsCalmly command steps) :=
  inferInstanceAs (Decidable (_ ∧ _))

end Course

/-- With dependable arithmetic all commands but two keep caches up to date. -/
theorem Command.keeps_of_dependable (dependable : Scalar.Dependable α) {command : Command α}
    (fills : command.empties = false) :
    command.action.Keeps ∨ ∃ autoUpdate, command = .setAutoUpdate autoUpdate := by
  by_cases plain : command.Plain
  · exact Or.inl (Command.keeps dependable.lowered_counts plain)
  · cases command with
    | suggest handle target =>
        exact Or.inl ((Action.keeps_suggest dependable handle target).bind fun _ => .pure _)
    | reset dropConstraints =>
        cases dropConstraints with
        | false => exact Or.inl (Action.keeps_reset.bind fun _ => .pure _)
        | true => exact Bool.noConfusion fills
    | setAutoUpdate autoUpdate => exact Or.inr ⟨autoUpdate, rfl⟩
    | _ => exact absurd trivial plain

theorem Course.PromptsCalmly.upToDate (dependable : Scalar.Dependable α) {command : Command α}
    {steps : Nat} (calmly : course.PromptsCalmly command steps)
    (accountable : course.solver.Accountable) (aware : course.solver.Aware)
    (current : course.solver.UpToDate) : (course.next command steps).solver.UpToDate := by
  obtain ⟨⟨automatic, final, fills⟩, calm⟩ := calmly
  rcases Command.keeps_of_dependable dependable fills with keeps | ⟨autoUpdate, rfl⟩
  · have here := Solver.perform_meets (keeps course.solver accountable) steps
    unfold next
    revert here final calm
    cases (course.solver.perform command steps).1 with
    | answered reply => exact fun _ _ kept => kept.prompt automatic aware current
    | refused reason =>
        intro calm _ spared
        have moved : reason ≠ .unbound := fun same => calm (congrArg Ending.refused same)
        exact (spared.unmoved moved).prompt automatic aware current
    | paused => exact fun _ final => Bool.noConfusion final
  · exact Solver.SameCaches.upToDate (.of_eq rfl rfl fun _ => rfl) current

/-- Where caches are refreshed without being asked for, they are up to date after every history in
which no command was refused after pivoting. -/
theorem caches_current (dependable : Scalar.Dependable α)
    (arises : course.Arises Course.PromptsCalmly) : course.solver.UpToDate := by
  have known : course.solver.Accountable ∧ course.solver.Aware ∧ course.solver.UpToDate := by
    induction arises with
    | start identity options =>
        exact ⟨⟨_, .new identity options⟩, .new identity options, .new identity options⟩
    | step _ calmly inductionHypothesis =>
        obtain ⟨accountable, aware, current⟩ := inductionHypothesis
        have continues := calmly.1.2
        have minded := Solver.perform_of_final
          (Command.minds dependable.lowered_counts continues.2 accountable) continues.1
        exact ⟨minded.accountable, minded.aware aware,
          calmly.upToDate dependable accountable aware current⟩
  exact known.2.2

/-- The variable between one and ten is up to date. -/
theorem caches_current_bounded : (afterDouble true Command.overreaching).solver.UpToDate :=
  caches_current Binary64.dependable (arises_afterDouble (by decide +kernel))

/-- When the bound is refused, the variable moves from one to ten, and its cache still holds
one. -/
theorem refused_add_leaves_cache :
    ¬ ∀ course : Course Float, course.Arises Course.Prompts →
      ∀ (handle : ConstraintHandle) (steps : Nat), course.Prompts (.addConstraint handle) steps →
        (course.solver.perform (.addConstraint handle) steps).2.UpToDate := by
  intro always
  have arises : (afterDouble true Command.overreaching).Arises Course.Prompts :=
    arises_afterDouble (by decide +kernel)
  have current := always _ arises ⟨3, 0⟩ 20 (by decide +kernel)
  have cached : (((afterDouble true Command.overreaching).solver.perform (.addConstraint ⟨3, 0⟩)
      20).2.unknowns.get? ⟨1, .external⟩).map Variable.value = some 1 := by decide +kernel
  have solved : ((afterDouble true Command.overreaching).solver.perform (.addConstraint ⟨3, 0⟩)
      20).2.tableau.value ⟨1, .external⟩ = 10 := by decide +kernel
  obtain ⟨state, found, value⟩ := Option.map_eq_some_iff.mp cached
  have stale := (value.symm.trans (current _ state found)).trans solved
  exact absurd stale (by decide +kernel)

end SoftSimplex
