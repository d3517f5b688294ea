import SoftSimplex.Solver.Command

/-!
# Actions that come to an answer

An action completes with an allotment if it answers whenever it is given that many steps and any
number of steps to spare, if the steps to spare are still there afterwards, and if the answer meets
a condition. Allotments of composed actions add up. Unlike the conditions that an action meets if it
answers, completion promises the answer.
-/

namespace SoftSimplex.Action

variable {α ρ τ : Type}

/-- With the steps that are needed the action answers, and the answer meets the condition. -/
def Completes (action : Action α ρ) (solver : Solver α) (need : Nat)
    (answered : ρ → Solver α → Prop) : Prop :=
  ∀ spare, ∃ result after left, action ⟨solver, need + spare⟩ = .ok result ⟨after, left⟩ ∧
    spare ≤ left ∧ answered result after

variable {action : Action α ρ} {solver : Solver α} {need : Nat} {answered : ρ → Solver α → Prop}

namespace Completes

theorem mono (completes : action.Completes solver need answered)
    {answered' : ρ → Solver α → Prop}
    (answers : ∀ result after, answered result after → answered' result after) :
    action.Completes solver need answered' := by
  intro spare
  obtain ⟨result, after, left, ran, enough, holds⟩ := completes spare
  exact ⟨result, after, left, ran, enough, answers result after holds⟩

theorem pure {result : ρ} (holds : answered result solver) :
    Completes (Pure.pure result : Action α ρ) solver 0 answered :=
  fun spare => ⟨result, solver, 0 + spare, rfl, by omega, holds⟩

theorem bind {following : ρ → Action α τ} {between : ρ → Solver α → Prop} {need' : Nat}
    {answered : τ → Solver α → Prop} (first : action.Completes solver need between)
    (second : ∀ result after, between result after →
      (following result).Completes after need' answered) :
    (action >>= following).Completes solver (need + need') answered := by
  intro spare
  obtain ⟨result, middle, left, ran, enough, holds⟩ := first (need' + spare)
  obtain ⟨result', after, left', ran', enough', holds'⟩ :=
    second result middle holds (left - need')
  refine ⟨result', after, left', ?_, by omega, holds'⟩
  rw [Nat.add_sub_cancel' (by omega)] at ran'
  simp only [Bind.bind, EStateM.bind]
  rw [Nat.add_assoc, ran]
  exact ran'

/-- The first part needs no steps. -/
theorem before {following : ρ → Action α τ} {between : ρ → Solver α → Prop}
    {answered : τ → Solver α → Prop} (first : action.Completes solver 0 between)
    (second : ∀ result after, between result after →
      (following result).Completes after need answered) :
    (action >>= following).Completes solver need answered := by
  have both := bind first second
  rwa [Nat.zero_add] at both

/-- The second part needs no steps. -/
theorem afterwards {following : ρ → Action α τ} {between : ρ → Solver α → Prop}
    {answered : τ → Solver α → Prop} (first : action.Completes solver need between)
    (second : ∀ result after, between result after →
      (following result).Completes after 0 answered) :
    (action >>= following).Completes solver need answered :=
  bind first second

/-- More steps do no harm. -/
theorem weaken {more : Nat} (completes : action.Completes solver need answered)
    (within : need ≤ more) : action.Completes solver more answered := by
  intro spare
  obtain ⟨result, after, left, ran, enough, holds⟩ := completes (more - need + spare)
  refine ⟨result, after, left, ?_, by omega, holds⟩
  rwa [← Nat.add_assoc, Nat.add_sub_cancel' within] at ran

theorem map {change : ρ → τ} {answered : τ → Solver α → Prop}
    (completes : action.Completes solver need fun result after => answered (change result) after) :
    (change <$> action).Completes solver need answered := by
  intro spare
  obtain ⟨result, after, left, ran, enough, holds⟩ := completes spare
  refine ⟨change result, after, left, ?_, enough, holds⟩
  simp only [Functor.map, EStateM.map]
  rw [ran]

theorem read_bind {following : Solver α → Action α ρ}
    (completes : (following solver).Completes solver need answered) :
    (read >>= following).Completes solver need answered :=
  completes

theorem update {change : Solver α → Solver α} {answered : Unit → Solver α → Prop}
    (holds : answered () (change solver)) :
    (Action.update change).Completes solver 0 answered :=
  fun spare => ⟨(), change solver, 0 + spare, rfl, by omega, holds⟩

theorem update_bind {change : Solver α → Solver α} {following : Unit → Action α ρ}
    (completes : (following ()).Completes (change solver) need answered) :
    (Action.update change >>= following).Completes solver need answered :=
  completes

theorem granted_bind {result : Except Refusal ρ} {value : ρ} (granted : result = .ok value)
    {following : ρ → Action α τ} {answered : τ → Solver α → Prop}
    (completes : (following value).Completes solver need answered) :
    (demand result >>= following).Completes solver need answered := by
  rw [granted]
  exact completes

/-- An action that completes is answered when it is executed as a command. -/
theorem perform [Scalar α] {command : Command α} {answered : Reply → Solver α → Prop}
    (completes : command.action.Completes solver need answered) {steps : Nat}
    (enough : need ≤ steps) :
    ∃ reply, (solver.perform command steps).1 = .answered reply ∧
      answered reply (solver.perform command steps).2 := by
  obtain ⟨reply, after, left, ran, _, holds⟩ := completes (steps - need)
  rw [Nat.add_sub_cancel' enough] at ran
  refine ⟨reply, ?_, ?_⟩ <;> unfold Solver.perform <;> rw [ran]
  exact holds

end Completes

end SoftSimplex.Action
