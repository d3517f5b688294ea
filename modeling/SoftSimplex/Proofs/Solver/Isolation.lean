import SoftSimplex.Proofs.Requests
import SoftSimplex.Proofs.Solver.Identity
import SoftSimplex.Proofs.Solver.Misuse

/-!
# Isolation

Solvers count their variables and constraints from one upward, so that handles of different solvers
often bear the same number. The identity in a handle keeps them apart. A command with a foreign
handle is refused, or done without if it has no result, and either way nothing changes. A question
about a foreign handle gets the answer for an object with nothing in it.

One question makes an exception. For the coefficient of a variable in a constraint, the variable
counts by its number alone.
-/

namespace SoftSimplex

variable {α : Type}

namespace Command

/-- One of the handles that the command is given is among these. -/
def Uses (ofVariables : VariableHandle → Prop) (ofConstraints : ConstraintHandle → Prop) :
    Command α → Prop
  | shareVariable handle | giveUpVariable handle | beginEdit handle _ | suggest handle _
  | endEdit handle => ofVariables handle
  | copyConstraint handle _ | addConstant handle _ | setRelation handle _ | setStrength handle _
  | addConstraint handle | withdrawConstraint handle | eraseConstraint handle
  | discardConstraint handle => ofConstraints handle
  | mergeConstraint handle source _ => ofConstraints handle ∨ ofConstraints source
  | addTerm handle inside _ => ofConstraints handle ∨ ofVariables inside
  | createVariable | createConstraint _ | refresh | reset _ | setAutoUpdate _ => False

/-- The command has a result that tells whether it was done. -/
def reports : Command α → Bool
  | shareVariable _ | copyConstraint _ _ | mergeConstraint _ _ _ | addTerm _ _ _ | addConstant _ _
  | setRelation _ _ | setStrength _ _ | addConstraint _ | beginEdit _ _ => true
  | _ => false

theorem Uses.mono {command : Command α} {ofVariables ofVariables' : VariableHandle → Prop}
    {ofConstraints ofConstraints' : ConstraintHandle → Prop}
    (uses : command.Uses ofVariables ofConstraints)
    (within : ∀ handle, ofVariables handle → ofVariables' handle)
    (within' : ∀ handle, ofConstraints handle → ofConstraints' handle) :
    command.Uses ofVariables' ofConstraints' := by
  cases command with
  | shareVariable handle | giveUpVariable handle | beginEdit handle | suggest handle
  | endEdit handle => exact within handle uses
  | copyConstraint handle | addConstant handle | setRelation handle | setStrength handle
  | addConstraint handle | withdrawConstraint handle | eraseConstraint handle
  | discardConstraint handle => exact within' handle uses
  | mergeConstraint handle source factor => exact uses.imp (within' handle) (within' source)
  | addTerm handle inside coefficient => exact uses.imp (within' handle) (within inside)
  | createVariable | createConstraint strength | refresh | reset dropConstraints
  | setAutoUpdate autoUpdate => exact uses.elim

end Command

namespace Solver

variable {solver : Solver α} {reason : Refusal}

/-- The variable's handle comes from a solver with another identity. -/
def ForeignVariable (solver : Solver α) (handle : VariableHandle) : Prop :=
  handle.owner ≠ solver.identity

/-- The constraint's handle comes from a solver with another identity. -/
def ForeignConstraint (solver : Solver α) (handle : ConstraintHandle) : Prop :=
  handle.owner ≠ solver.identity

theorem ForeignVariable.findVariable {handle : VariableHandle}
    (foreign : solver.ForeignVariable handle) :
    solver.findVariable handle = .error .foreignHandle :=
  if_neg foreign

theorem ForeignConstraint.findConstraint {handle : ConstraintHandle}
    (foreign : solver.ForeignConstraint handle) :
    solver.findConstraint handle = .error .foreignHandle :=
  if_neg foreign

theorem ForeignConstraint.findInactive {handle : ConstraintHandle}
    (foreign : solver.ForeignConstraint handle) :
    solver.findInactive handle = .error .foreignHandle := by
  rw [Solver.findInactive, foreign.findConstraint]

/-- A handle that names nothing counts as a failure. -/
theorem failed_of_findVariable {handle : VariableHandle}
    (missing : solver.findVariable handle = .error reason) : reason.status = .failed := by
  unfold Solver.findVariable at missing
  split at missing
  · split at missing
    · exact absurd missing (by simp)
    · rw [← Except.error.inj missing]
      rfl
  · rw [← Except.error.inj missing]
    rfl

theorem failed_of_findConstraint {handle : ConstraintHandle}
    (missing : solver.findConstraint handle = .error reason) : reason.status = .failed := by
  unfold Solver.findConstraint at missing
  split at missing
  · split at missing
    · exact absurd missing (by simp)
    · rw [← Except.error.inj missing]
      rfl
  · rw [← Except.error.inj missing]
    rfl

end Solver

namespace Action

variable {ρ τ : Type} {action : Action α ρ} {solver : Solver α}

/-- The action is refused with a failure and leaves the solver as it was. -/
def Declines (action : Action α ρ) (solver : Solver α) : Prop :=
  action.Meets solver (fun _ _ => False)
    (fun reason after => reason.status = .failed ∧ after = solver) fun _ => False

namespace Declines

theorem bind {following : ρ → Action α τ} (declines : action.Declines solver) :
    (action >>= following).Declines solver :=
  Meets.bind declines fun _ _ => False.elim

theorem map {change : ρ → τ} (declines : action.Declines solver) :
    (change <$> action).Declines solver :=
  Meets.map declines

/-- What is looked up first is not there. -/
theorem of_demand {sought : Solver α → Except Refusal τ} {following : τ → Action α ρ}
    {reason : Refusal} (denied : sought solver = .error reason)
    (failed : reason.status = .failed) :
    Declines (do let result ← demand (sought (← Action.read)); following result) solver :=
  Meets.read_bind (Meets.denied_bind denied ⟨failed, rfl⟩)

/-- What is looked up second is not there. -/
theorem of_second_demand {σ : Type} {first : Solver α → Except Refusal τ}
    {second : Solver α → Except Refusal σ} {following : τ → σ → Action α ρ} {reason : Refusal}
    (failed_first : ∀ reason, first solver = .error reason → reason.status = .failed)
    (denied : second solver = .error reason) (failed : reason.status = .failed) :
    Declines (do
      let result ← demand (first (← Action.read))
      let other ← demand (second (← Action.read))
      following result other) solver := by
  refine Meets.read_bind (Meets.demand_bind ?_ fun reason missing =>
    ⟨failed_first reason missing, rfl⟩)
  exact fun _ _ => Meets.read_bind (Meets.denied_bind denied ⟨failed, rfl⟩)

end Declines

end Action

/-- A command without a result misses a foreign handle. -/
theorem Command.misses_of_uses {command : Command α} {solver : Solver α}
    (uses : command.Uses solver.ForeignVariable solver.ForeignConstraint)
    (silent : command.reports = false) : command.Misses solver := by
  cases command with
  | giveUpVariable handle | suggest handle target | endEdit handle => exact ⟨_, uses.findVariable⟩
  | eraseConstraint handle | discardConstraint handle => exact ⟨_, uses.findConstraint⟩
  | withdrawConstraint handle => simp [Command.Misses, Solver.isActive, uses.findConstraint]
  | createVariable | createConstraint strength | refresh | reset dropConstraints
  | setAutoUpdate autoUpdate => exact uses.elim
  | _ => exact Bool.noConfusion silent

variable [Scalar α]

/-- A command that tells whether it was done does not accept a foreign handle in any place. -/
theorem Command.declines_of_uses {command : Command α} {solver : Solver α}
    (uses : command.Uses solver.ForeignVariable solver.ForeignConstraint)
    (reports : command.reports = true) : command.action.Declines solver := by
  cases command with
  | shareVariable handle => exact (Action.Declines.of_demand uses.findVariable rfl).bind
  | copyConstraint source strength =>
      exact (Action.Declines.of_demand uses.findConstraint rfl).map
  | mergeConstraint handle source factor =>
      refine Action.Declines.bind ?_
      rcases uses with foreign | foreign
      · exact .of_second_demand (fun _ => Solver.failed_of_findConstraint) foreign.findInactive rfl
      · exact .of_demand foreign.findConstraint rfl
  | addTerm handle inside coefficient =>
      refine Action.Declines.bind ?_
      rcases uses with foreign | foreign
      · exact .of_second_demand (fun _ => Solver.failed_of_findVariable) foreign.findInactive rfl
      · exact .of_demand foreign.findVariable rfl
  | addConstant handle constant => exact (Action.Declines.of_demand uses.findInactive rfl).bind
  | setRelation handle relation => exact (Action.Declines.of_demand uses.findInactive rfl).bind
  | setStrength handle strength => exact (Action.Declines.of_demand uses.findConstraint rfl).bind
  | addConstraint handle => exact (Action.Declines.of_demand uses.findConstraint rfl).bind
  | beginEdit handle strength => exact (Action.Declines.of_demand uses.findVariable rfl).bind
  | _ => exact Bool.noConfusion reports

/-- How some commands end one after the other, each with its allotment of steps, and the solver
that they lead to. -/
def Solver.execute (identity : Nat) (options : Options) (commands : List (Command α × Nat)) :
    List Ending × Solver α :=
  Requests.follow (fun solver request => solver.perform request.1 request.2)
    (Solver.new identity options) commands

/-- All handles that a solver has handed out bear the identity that it was created with, and it has
this identity still. -/
theorem Solver.execute_bears (identity : Nat) (options : Options)
    (commands : List (Command α × Nat)) :
    (∀ ending ∈ (Solver.execute identity options commands).1,
      ∀ reply, ending = .answered reply → reply.Bears identity) ∧
      (Solver.execute identity options commands).2.identity = identity := by
  have each : ∀ (solver : Solver α) (request : Command α × Nat), solver.identity = identity →
      (∀ reply, (solver.perform request.1 request.2).1 = .answered reply → reply.Bears identity) ∧
        (solver.perform request.1 request.2).2.identity = identity := by
    intro solver request same
    have unchanged := (solver.identity_perform request.1 request.2).trans same
    exact ⟨fun reply answered => same ▸ Solver.bears_of_perform answered, unchanged⟩
  exact Requests.follow_invariant (fun solver : Solver α => solver.identity = identity)
    (fun ending : Ending => ∀ reply, ending = .answered reply → reply.Bears identity) each rfl
    commands

namespace Solver

/-- What the solver does when it is given some handles by which it must not be moved. -/
structure Isolated (solver : Solver α) (ofVariables : VariableHandle → Prop)
    (ofConstraints : ConstraintHandle → Prop) : Prop where
  /-- A command that tells whether it was done is refused and changes nothing. -/
  refused : ∀ command steps, command.Uses ofVariables ofConstraints → command.reports = true →
    ∃ reason, reason.status = .failed ∧ solver.perform command steps = (.refused reason, solver)
  /-- A command without a result changes nothing. -/
  ignored : ∀ command steps, command.Uses ofVariables ofConstraints → command.reports = false →
    solver.perform command steps = (.answered .done, solver)
  valueOf_eq : ∀ handle, ofVariables handle → solver.valueOf handle = 0
  targetOf_eq : ∀ handle, ofVariables handle → solver.targetOf handle = 0
  isEdited_eq : ∀ handle, ofVariables handle → solver.isEdited handle = false
  isActive_eq : ∀ handle, ofConstraints handle → solver.isActive handle = false
  strengthOf?_eq : ∀ handle, ofConstraints handle → solver.strengthOf? handle = none
  relationOf?_eq : ∀ handle, ofConstraints handle → solver.relationOf? handle = none
  constantOf_eq : ∀ handle, ofConstraints handle → solver.constantOf handle = 0
  termCountOf_eq : ∀ handle, ofConstraints handle → solver.termCountOf handle = 0
  coefficientOf_eq : ∀ handle inside, ofConstraints handle → solver.coefficientOf handle inside = 0
  /-- Of a variable's handle the coefficient reads the number alone, as if it were an own one. -/
  coefficientOf_inside : ∀ handle inside, ofVariables inside →
    solver.coefficientOf handle inside = solver.coefficientOf handle ⟨inside.id, solver.identity⟩

theorem isolated_of_foreign {solver : Solver α} {ofVariables : VariableHandle → Prop}
    {ofConstraints : ConstraintHandle → Prop}
    (foreign : ∀ handle, ofVariables handle → solver.ForeignVariable handle)
    (foreign' : ∀ handle, ofConstraints handle → solver.ForeignConstraint handle) :
    solver.Isolated ofVariables ofConstraints where
  refused command steps uses reports := by
    have here := perform_meets
      (command.declines_of_uses (uses.mono foreign foreign') reports) steps
    revert here
    rcases solver.perform command steps with ⟨ending, after⟩
    cases ending with
    | answered reply => exact False.elim
    | paused => exact False.elim
    | refused reason =>
        rintro ⟨failed, rfl⟩
        exact ⟨reason, failed, rfl⟩
  ignored command steps uses silent :=
    perform_of_misses (command.misses_of_uses (uses.mono foreign foreign') silent) steps
  valueOf_eq handle member := by rw [valueOf, (foreign handle member).findVariable]
  targetOf_eq handle member := by rw [targetOf, (foreign handle member).findVariable]
  isEdited_eq handle member := by rw [isEdited, (foreign handle member).findVariable]
  isActive_eq handle member := by rw [isActive, (foreign' handle member).findConstraint]
  strengthOf?_eq handle member := by rw [strengthOf?, (foreign' handle member).findConstraint]
  relationOf?_eq handle member := by rw [relationOf?, (foreign' handle member).findConstraint]
  constantOf_eq handle member := by rw [constantOf, (foreign' handle member).findConstraint]
  termCountOf_eq handle member := by rw [termCountOf, (foreign' handle member).findConstraint]
  coefficientOf_eq handle inside member := by
    rw [coefficientOf, (foreign' handle member).findConstraint]
  coefficientOf_inside _ _ _ := rfl

end Solver

/-- Solvers with different identities are isolated from each other's handles, whatever has been done
with either of them. -/
theorem solvers_isolated {identity identity' : Nat} (apart : identity ≠ identity')
    (options options' : Options) (commands commands' : List (Command α × Nat)) :
    (Solver.execute identity options commands).2.Isolated
      (fun handle => .answered (.variable handle) ∈
        (Solver.execute identity' options' commands').1)
      (fun handle => .answered (.constraint handle) ∈
        (Solver.execute identity' options' commands').1) := by
  rcases Solver.execute_bears identity options commands with ⟨_, own⟩
  rcases Solver.execute_bears identity' options' commands' with ⟨others, _⟩
  apply Solver.isolated_of_foreign
  · intro handle issued same
    exact apart (own.symm.trans (same.symm.trans (others _ issued _ rfl)))
  · intro handle issued same
    exact apart (own.symm.trans (same.symm.trans (others _ issued _ rfl)))

/-- A variable is created and pulled to nine. -/
def pullingHistory : List (Command Rat × Nat) :=
  [(.createVariable, 0), (.suggest ⟨1, 0⟩ 9, 20)]

/-- A variable is created, and mentioned in a constraint with the coefficient three. -/
def mentioningHistory : List (Command Rat × Nat) :=
  [(.createVariable, 0), (.createConstraint .weak, 0), (.addTerm ⟨1, 1⟩ ⟨1, 1⟩ 3, 0)]

/-- The variable that is pulled in one solver has no value in the other, and cannot be mentioned
there. -/
theorem solvers_isolated_mentioning :
    (Solver.execute 1 {} mentioningHistory).2.valueOf ⟨1, 0⟩ = 0 ∧
      ∃ reason, reason.status = .failed ∧
        (Solver.execute 1 {} mentioningHistory).2.perform (.addTerm ⟨1, 1⟩ ⟨1, 0⟩ 2) 20 =
          (.refused reason, (Solver.execute 1 {} mentioningHistory).2) := by
  have isolated := solvers_isolated Nat.one_ne_zero {} {} mentioningHistory pullingHistory
  have issued : .answered (.variable ⟨1, 0⟩) ∈ (Solver.execute 0 {} pullingHistory).1 := by
    decide +kernel
  exact ⟨isolated.valueOf_eq ⟨1, 0⟩ issued,
    isolated.refused (.addTerm ⟨1, 1⟩ ⟨1, 0⟩ 2) 20 (Or.inr issued) rfl⟩

/-- The variable that is pulled in one solver is taken for the one that the constraint of the other
mentions. -/
theorem foreign_variable_has_coefficient :
    .answered (.variable ⟨1, 0⟩) ∈ (Solver.execute 0 {} pullingHistory).1 ∧
      .answered (.constraint ⟨1, 1⟩) ∈ (Solver.execute 1 {} mentioningHistory).1 ∧
      (Solver.execute 1 {} mentioningHistory).2.coefficientOf ⟨1, 1⟩ ⟨1, 0⟩ = 3 := by
  decide +kernel

end SoftSimplex
