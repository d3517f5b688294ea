import SoftSimplex.Scalar.Rational
import SoftSimplex.Solver.Action

/-!
# Where an action leads

An action meets its conditions from a solver if, however many steps it is allotted, an answer
comes with a solver that meets the first condition, a refusal with one that meets the second, and a
pause leaves one behind that meets the third. The conditions of composed actions are composed from
those of their parts.

For exact arithmetic nothing is asked of a pause in most places. An action yields its conditions if
every answer and every refusal meets them.
-/

namespace SoftSimplex.Action

section Meets

variable {α ρ τ : Type}

/-- Every answer, every refusal and every pause meets its condition. -/
def Meets (action : Action α ρ) (solver : Solver α) (answered : ρ → Solver α → Prop)
    (refused : Refusal → Solver α → Prop) (paused : Solver α → Prop) : Prop :=
  ∀ steps, match action ⟨solver, steps⟩ with
    | .ok result session => answered result session.solver
    | .error (.refused reason) session => refused reason session.solver
    | .error .paused session => paused session.solver

variable {action : Action α ρ} {solver : Solver α} {answered : ρ → Solver α → Prop}
  {refused : Refusal → Solver α → Prop} {paused : Solver α → Prop}

/-- Every action leads somewhere. -/
theorem meets_true (action : Action α ρ) (solver : Solver α) :
    action.Meets solver (fun _ _ => True) (fun _ _ => True) fun _ => True := by
  intro steps
  cases action ⟨solver, steps⟩ with
  | ok result session => trivial
  | error interrupt session => cases interrupt <;> trivial

namespace Meets

theorem mono (meets : action.Meets solver answered refused paused)
    {answered' : ρ → Solver α → Prop} {refused' : Refusal → Solver α → Prop}
    {paused' : Solver α → Prop}
    (answers : ∀ result after, answered result after → answered' result after)
    (refusals : ∀ reason after, refused reason after → refused' reason after)
    (pauses : ∀ after, paused after → paused' after) :
    action.Meets solver answered' refused' paused' := by
  intro steps
  have here := meets steps
  revert here
  cases action ⟨solver, steps⟩ with
  | ok result session => exact answers result session.solver
  | error interrupt session =>
      cases interrupt with
      | refused reason => exact refusals reason session.solver
      | paused => exact pauses session.solver

theorem weaken (meets : action.Meets solver answered refused paused)
    {answered' : ρ → Solver α → Prop}
    (answers : ∀ result after, answered result after → answered' result after) :
    action.Meets solver answered' refused paused :=
  meets.mono answers (fun _ _ => id) fun _ => id

theorem pure {result : ρ} (holds : answered result solver) :
    Meets (Pure.pure result : Action α ρ) solver answered refused paused :=
  fun _ => holds

theorem bind {following : ρ → Action α τ} {between : ρ → Solver α → Prop}
    {answered : τ → Solver α → Prop} (first : action.Meets solver between refused paused)
    (second : ∀ result after, between result after →
      (following result).Meets after answered refused paused) :
    (action >>= following).Meets solver answered refused paused := by
  intro steps
  have here := first steps
  simp only [Bind.bind, EStateM.bind]
  revert here
  cases action ⟨solver, steps⟩ with
  | ok result session => exact fun holds => second result session.solver holds session.steps
  | error interrupt session => cases interrupt <;> exact id

theorem map {change : ρ → τ} {answered : τ → Solver α → Prop}
    (meets : action.Meets solver (fun result after => answered (change result) after) refused
      paused) :
    (change <$> action).Meets solver answered refused paused := by
  intro steps
  have here := meets steps
  simp only [Functor.map, EStateM.map]
  revert here
  cases action ⟨solver, steps⟩ with
  | ok result session => exact id
  | error interrupt session => cases interrupt <;> exact id

theorem read_bind {following : Solver α → Action α ρ}
    (meets : (following solver).Meets solver answered refused paused) :
    (read >>= following).Meets solver answered refused paused :=
  meets

theorem update {change : Solver α → Solver α} {answered : Unit → Solver α → Prop}
    (holds : answered () (change solver)) :
    (Action.update change).Meets solver answered refused paused :=
  fun _ => holds

theorem update_bind {change : Solver α → Solver α} {following : Unit → Action α ρ}
    (meets : (following ()).Meets (change solver) answered refused paused) :
    (Action.update change >>= following).Meets solver answered refused paused :=
  meets

theorem refuse {reason : Refusal} (holds : refused reason solver) :
    Meets (Action.refuse reason : Action α ρ) solver answered refused paused :=
  fun _ => holds

theorem demand_bind {result : Except Refusal ρ} {following : ρ → Action α τ}
    {answered : τ → Solver α → Prop}
    (accepted : ∀ value, result = .ok value →
      (following value).Meets solver answered refused paused)
    (declined : ∀ reason, result = .error reason → refused reason solver) :
    (demand result >>= following).Meets solver answered refused paused := by
  cases result with
  | ok value => exact accepted value rfl
  | error reason => exact fun _ => declined reason rfl

/-- Going on with a result that is there. -/
theorem granted_bind {result : Except Refusal ρ} {value : ρ} (granted : result = .ok value)
    {following : ρ → Action α τ} {answered : τ → Solver α → Prop}
    (meets : (following value).Meets solver answered refused paused) :
    (demand result >>= following).Meets solver answered refused paused := by
  rw [granted]
  exact meets

/-- Stopping for a reason that is there. -/
theorem denied_bind {result : Except Refusal ρ} {reason : Refusal} (denied : result = .error reason)
    {following : ρ → Action α τ} {answered : τ → Solver α → Prop}
    (holds : refused reason solver) :
    (demand result >>= following).Meets solver answered refused paused := by
  rw [denied]
  exact fun _ => holds

/-- Two sets of conditions hold together. -/
theorem and (meets : action.Meets solver answered refused paused)
    {answered' : ρ → Solver α → Prop} {refused' : Refusal → Solver α → Prop}
    {paused' : Solver α → Prop} (meets' : action.Meets solver answered' refused' paused') :
    action.Meets solver (fun result after => answered result after ∧ answered' result after)
      (fun reason after => refused reason after ∧ refused' reason after)
      (fun after => paused after ∧ paused' after) := by
  intro steps
  have here := meets steps
  have here' := meets' steps
  revert here here'
  cases action ⟨solver, steps⟩ with
  | ok result session => exact And.intro
  | error interrupt session => cases interrupt <;> exact And.intro

/-- An attempt is never refused. -/
theorem attempt (meets : action.Meets solver answered refused paused)
    {refused' : Refusal → Solver α → Prop} :
    (attempt action).Meets solver (fun result after =>
      match result with
      | .ok value => answered value after
      | .error reason => refused reason after) refused' paused := by
  intro steps
  have here := meets steps
  simp only [Action.attempt]
  revert here
  cases action ⟨solver, steps⟩ with
  | ok result session => exact id
  | error interrupt session =>
      cases interrupt with
      | refused reason => exact id
      | paused => exact id

theorem rework_bind {change : Tableau α → Tableau α} {following : Unit → Action α ρ}
    (meets : (following ()).Meets (solver.adopt (change solver.tableau)) answered refused paused) :
    (Action.rework change >>= following).Meets solver answered refused paused :=
  meets

/-- What every round of a walk keeps, the walk keeps. -/
theorem forM {σ : Type} {items : List σ} {round : σ → Action α PUnit} (kept : Solver α → Prop)
    (keeps : ∀ item ∈ items, ∀ before, kept before →
      (round item).Meets before (fun _ after => kept after) refused paused)
    (holds : kept solver) :
    (items.forM round).Meets solver (fun _ after => kept after) refused paused := by
  induction items generalizing solver with
  | nil => exact fun _ => holds
  | cons item rest inductionHypothesis =>
      refine bind (keeps item List.mem_cons_self solver holds) fun _ after now => ?_
      exact inductionHypothesis (fun later member => keeps later (List.mem_cons_of_mem _ member))
        now

variable [Scalar α]

/-- The primal phase answers where its run halts. -/
theorem descend {goal? : Option (LinearForm α)}
    {answered : Bool × Option (LinearForm α) → Solver α → Prop}
    (holds : ∀ steps reached, (solver.tableau.descend steps goal?).result? = some reached →
      answered (reached, (solver.tableau.descend steps goal?).state.goal?)
        (solver.adopt (solver.tableau.descend steps goal?).state.tableau))
    (pauses : ∀ steps, paused (solver.adopt (solver.tableau.descend steps goal?).state.tableau)) :
    (Action.descend goal?).Meets solver answered refused paused := by
  intro steps
  have here := holds steps
  simp only [Action.descend]
  cases halted : (solver.tableau.descend steps goal?).result? with
  | none => exact pauses steps
  | some reached => exact here reached halted

/-- The dual phase answers where its run halts. -/
theorem repair {answered : Unit → Solver α → Prop}
    (holds : ∀ steps, (solver.tableau.repair steps).result? = some () →
      answered () (solver.adopt (solver.tableau.repair steps).state))
    (pauses : ∀ steps, paused (solver.adopt (solver.tableau.repair steps).state)) :
    (Action.repair : Action α Unit).Meets solver answered refused paused := by
  intro steps
  have here := holds steps
  simp only [Action.repair]
  cases halted : (solver.tableau.repair steps).result? with
  | none => exact pauses steps
  | some _ => exact here halted

end Meets

end Meets

/-! ## Exact arithmetic -/

variable {ρ τ : Type}

/-- Every answer and every refusal meets its condition. -/
def Yields (action : Action Rat ρ) (solver : Solver Rat) (answered : ρ → Solver Rat → Prop)
    (refused : Refusal → Solver Rat → Prop) : Prop :=
  action.Meets solver answered refused fun _ => True

/-- The action is never refused, and every answer meets the condition. -/
abbrev Leads (action : Action Rat ρ) (solver : Solver Rat)
    (answered : ρ → Solver Rat → Prop) : Prop :=
  action.Yields solver answered fun _ _ => False

variable {action : Action Rat ρ} {solver : Solver Rat} {answered : ρ → Solver Rat → Prop}
  {refused : Refusal → Solver Rat → Prop}

namespace Yields

theorem mono (yields : action.Yields solver answered refused) {answered' : ρ → Solver Rat → Prop}
    {refused' : Refusal → Solver Rat → Prop}
    (answers : ∀ result after, answered result after → answered' result after)
    (refusals : ∀ reason after, refused reason after → refused' reason after) :
    action.Yields solver answered' refused' :=
  Meets.mono yields answers refusals fun _ => id

theorem weaken (yields : action.Yields solver answered refused)
    {answered' : ρ → Solver Rat → Prop}
    (answers : ∀ result after, answered result after → answered' result after) :
    action.Yields solver answered' refused :=
  Meets.weaken yields answers

/-- What two accounts of an action say about its answers holds at once. -/
theorem both (yields : action.Yields solver answered refused) {answered' : ρ → Solver Rat → Prop}
    (yields' : action.Yields solver answered' refused) :
    action.Yields solver (fun result after => answered result after ∧ answered' result after)
      refused :=
  Meets.mono (Meets.and yields yields') (fun _ _ => id) (fun _ _ => And.left) fun _ => And.left

/-- An action that is never refused meets any condition on refusals. -/
theorem of_leads (leads : action.Leads solver answered)
    {answered' : ρ → Solver Rat → Prop}
    (answers : ∀ result after, answered result after → answered' result after) :
    action.Yields solver answered' refused :=
  Yields.mono leads answers fun _ _ => False.elim

theorem pure {result : ρ} (holds : answered result solver) :
    Yields (Pure.pure result : Action Rat ρ) solver answered refused :=
  Meets.pure holds

theorem bind {following : ρ → Action Rat τ} {between : ρ → Solver Rat → Prop}
    {answered : τ → Solver Rat → Prop} (first : action.Yields solver between refused)
    (second : ∀ result after, between result after →
      (following result).Yields after answered refused) :
    (action >>= following).Yields solver answered refused :=
  Meets.bind first second

/-- The rest of an action whose first part is never refused. -/
theorem bind_of_leads {following : ρ → Action Rat τ} {between : ρ → Solver Rat → Prop}
    {answered : τ → Solver Rat → Prop} (first : action.Leads solver between)
    (second : ∀ result after, between result after →
      (following result).Yields after answered refused) :
    (action >>= following).Yields solver answered refused :=
  bind (of_leads first fun _ _ => id) second

/-- The rest of an action whose first three parts are never refused. -/
theorem bind_of_leads_three {first second third : Action Rat Unit} {following : Action Rat τ}
    {between : Unit → Solver Rat → Prop} {answered : τ → Solver Rat → Prop}
    (parts : (do first; second; third : Action Rat Unit).Leads solver between)
    (rest : ∀ after, between () after → following.Yields after answered refused) :
    (do first; second; third; following : Action Rat τ).Yields solver answered refused := by
  have together : (do first; second; third; following : Action Rat τ) =
      (do first; second; third : Action Rat Unit) >>= fun _ => following := by
    simp only [bind_assoc]
  rw [together]
  exact bind_of_leads parts fun _ => rest

theorem map {change : ρ → τ} {answered : τ → Solver Rat → Prop}
    (yields : action.Yields solver (fun result after => answered (change result) after) refused) :
    (change <$> action).Yields solver answered refused :=
  Meets.map yields

theorem read_bind {following : Solver Rat → Action Rat ρ}
    (yields : (following solver).Yields solver answered refused) :
    (read >>= following).Yields solver answered refused :=
  yields

theorem update {change : Solver Rat → Solver Rat} {answered : Unit → Solver Rat → Prop}
    (holds : answered () (change solver)) :
    (Action.update change).Yields solver answered refused :=
  fun _ => holds

theorem update_bind {change : Solver Rat → Solver Rat} {following : Unit → Action Rat ρ}
    (yields : (following ()).Yields (change solver) answered refused) :
    (Action.update change >>= following).Yields solver answered refused :=
  yields

theorem refuse {reason : Refusal} (holds : refused reason solver) :
    Yields (Action.refuse reason : Action Rat ρ) solver answered refused :=
  fun _ => holds

theorem demand_bind {result : Except Refusal ρ} {following : ρ → Action Rat τ}
    {answered : τ → Solver Rat → Prop}
    (accepted : ∀ value, result = .ok value → (following value).Yields solver answered refused)
    (declined : ∀ reason, result = .error reason → refused reason solver) :
    (demand result >>= following).Yields solver answered refused :=
  Meets.demand_bind accepted declined

/-- An attempt is never refused. -/
theorem attempt (yields : action.Yields solver answered refused) :
    (attempt action).Leads solver fun result after =>
      match result with
      | .ok value => answered value after
      | .error reason => refused reason after :=
  Meets.attempt yields

theorem rework_bind {change : Tableau Rat → Tableau Rat} {following : Unit → Action Rat ρ}
    (yields : (following ()).Yields (solver.adopt (change solver.tableau)) answered refused) :
    (Action.rework change >>= following).Yields solver answered refused :=
  yields

/-- The primal phase answers where its run halts. -/
theorem descend {goal? : Option (LinearForm Rat)}
    {answered : Bool × Option (LinearForm Rat) → Solver Rat → Prop}
    (holds : ∀ steps reached, (solver.tableau.descend steps goal?).result? = some reached →
      answered (reached, (solver.tableau.descend steps goal?).state.goal?)
        (solver.adopt (solver.tableau.descend steps goal?).state.tableau)) :
    (Action.descend goal?).Leads solver answered :=
  Meets.descend holds fun _ => trivial

/-- The dual phase answers where its run halts. -/
theorem repair {answered : Unit → Solver Rat → Prop}
    (holds : ∀ steps, (solver.tableau.repair steps).result? = some () →
      answered () (solver.adopt (solver.tableau.repair steps).state)) :
    (Action.repair : Action Rat Unit).Leads solver answered :=
  Meets.repair holds fun _ => trivial

/-- What every round of a walk keeps, the walk keeps. -/
theorem forM {σ : Type} {items : List σ} {round : σ → Action Rat PUnit} (kept : Solver Rat → Prop)
    (keeps : ∀ item ∈ items, ∀ before, kept before →
      (round item).Yields before (fun _ after => kept after) refused)
    (holds : kept solver) :
    (items.forM round).Yields solver (fun _ after => kept after) refused :=
  Meets.forM kept keeps holds

end Yields

end SoftSimplex.Action
