/-!
# Bounded iteration

Pivoting goes on until a rule says stop, and nothing bounds the number of pivots beforehand. A
run is therefore given a number of steps. It either halts within them, with a result and the
steps left over, or pauses in the state that the given number of steps leads to.
-/

namespace SoftSimplex

/-- One decision of a repeated process. -/
inductive Step (σ ρ : Type) where
  | halt (result : ρ)
  | next (state : σ)

/-- Where a run has come to. -/
structure Run (σ ρ : Type) where
  state : σ
  /-- The steps that were not needed. -/
  stepsLeft : Nat
  /-- The result, or nothing if the run paused. -/
  result? : Option ρ

/-- Repeat a step until it halts, at most the given number of times. -/
def iterate {σ ρ : Type} (step : σ → Step σ ρ) : Nat → σ → Run σ ρ
  | 0, state =>
      match step state with
      | .halt result => ⟨state, 0, some result⟩
      | .next _ => ⟨state, 0, none⟩
  | steps + 1, state =>
      match step state with
      | .halt result => ⟨state, steps + 1, some result⟩
      | .next following => iterate step steps following

section Laws

variable {σ ρ : Type} {step : σ → Step σ ρ}

theorem iterate_of_halt {state : σ} {result : ρ} (halts : step state = .halt result)
    (steps : Nat) : iterate step steps state = ⟨state, steps, some result⟩ := by
  cases steps <;> simp [iterate, halts]

theorem iterate_zero_of_next {state following : σ} (moves : step state = .next following) :
    iterate step 0 state = ⟨state, 0, none⟩ := by
  simp [iterate, moves]

theorem iterate_succ_of_next {state following : σ} (moves : step state = .next following)
    (steps : Nat) : iterate step (steps + 1) state = iterate step steps following := by
  simp [iterate, moves]

/-- What every step keeps, a run keeps. -/
theorem iterate_invariant {kept : σ → Prop}
    (keeps : ∀ state following, kept state → step state = .next following → kept following)
    (steps : Nat) (state : σ) (holds : kept state) : kept (iterate step steps state).state := by
  induction steps generalizing state with
  | zero =>
      cases decision : step state with
      | halt result => simpa [iterate_of_halt decision] using holds
      | next following => simpa [iterate_zero_of_next decision] using holds
  | succ steps inductionHypothesis =>
      cases decision : step state with
      | halt result => simpa [iterate_of_halt decision] using holds
      | next following =>
          rw [iterate_succ_of_next decision]
          exact inductionHypothesis following (keeps state following holds decision)

/-- A run that does not pause ends in a state at which its step halts with the result. -/
theorem step_state_of_result (steps : Nat) (state : σ) (result : ρ)
    (finished : (iterate step steps state).result? = some result) :
    step (iterate step steps state).state = .halt result := by
  induction steps generalizing state with
  | zero =>
      cases decision : step state with
      | halt actual =>
          rw [iterate_of_halt decision] at finished ⊢
          exact decision.trans (congrArg Step.halt (Option.some.inj finished))
      | next following =>
          rw [iterate_zero_of_next decision] at finished
          exact absurd finished (by simp)
  | succ steps inductionHypothesis =>
      cases decision : step state with
      | halt actual =>
          rw [iterate_of_halt decision] at finished ⊢
          exact decision.trans (congrArg Step.halt (Option.some.inj finished))
      | next following =>
          rw [iterate_succ_of_next decision] at finished ⊢
          exact inductionHypothesis following finished

/-- A run that pauses takes one step more if it is given one. -/
theorem step_state_of_pause (steps : Nat) (state : σ)
    (paused : (iterate step steps state).result? = none) :
    step (iterate step steps state).state = .next (iterate step (steps + 1) state).state := by
  induction steps generalizing state with
  | zero =>
      cases decision : step state with
      | halt result =>
          rw [iterate_of_halt decision] at paused
          exact absurd paused (by simp)
      | next following =>
          rw [iterate_zero_of_next decision, iterate_succ_of_next decision, decision]
          cases further : step following <;> simp [iterate, further]
  | succ steps inductionHypothesis =>
      cases decision : step state with
      | halt result =>
          rw [iterate_of_halt decision] at paused
          exact absurd paused (by simp)
      | next following =>
          rw [iterate_succ_of_next decision] at paused ⊢
          rw [iterate_succ_of_next decision]
          exact inductionHypothesis following paused

/-- A run that does not pause stays where it is if it is given one step more. -/
theorem iterate_succ_state_of_result (steps : Nat) (state : σ) {result : ρ}
    (finished : (iterate step steps state).result? = some result) :
    (iterate step (steps + 1) state).state = (iterate step steps state).state := by
  induction steps generalizing state with
  | zero =>
      cases decision : step state with
      | halt actual => simp [iterate_of_halt decision]
      | next following =>
          rw [iterate_zero_of_next decision] at finished
          exact absurd finished (by simp)
  | succ steps inductionHypothesis =>
      cases decision : step state with
      | halt actual => simp [iterate_of_halt decision]
      | next following =>
          rw [iterate_succ_of_next decision] at finished
          rw [iterate_succ_of_next decision, iterate_succ_of_next decision]
          exact inductionHypothesis following finished

end Laws

end SoftSimplex
