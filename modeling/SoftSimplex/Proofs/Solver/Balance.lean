import SoftSimplex.Proofs.Solver.Squaring

/-!
# Balanced histories

In a balanced history no caller gives up more references to a variable than it was handed with the
variable and has asked for since. Then references are exact: a variable is registered as long as
somebody refers to it, and the number of its references is that of those who do. Edits are coherent:
every edited variable has a hidden constraint of its own, and no other hidden constraint is left.
-/

namespace SoftSimplex

variable {α : Type} [Scalar α] {capped : Prop} {solver : Solver α} {issued : List Nat}
  {deals : List Deal}

namespace Deal

/-- Callers have given up no more references than they were handed and asked for. -/
def Fair (deals : List Deal) : Prop :=
  ∀ id, deals.count (gaveUp id) ≤ 1 + deals.count (shared id)

/-- Only variables that were dealt with matter. -/
theorem fair_iff (deals : List Deal) : Fair deals ↔
    ∀ deal ∈ deals, deals.count (gaveUp deal.id) ≤ 1 + deals.count (shared deal.id) := by
  constructor
  · exact fun fair deal _ => fair deal.id
  · intro fair id
    by_cases member : gaveUp id ∈ deals
    · exact fair (gaveUp id) member
    · rw [List.count_eq_zero_of_not_mem member]
      exact Nat.zero_le _

instance (deals : List Deal) : Decidable (Fair deals) :=
  decidable_of_iff _ (fair_iff deals).symm

theorem Fair.covered (fair : Fair deals) {id : Nat} (created : .created id ∈ deals) :
    0 ≤ balance deals id := by
  have once := List.count_pos_iff.mpr created
  have given := fair id
  rw [balance_eq]
  omega

end Deal

namespace Course

variable {course : Course α} {admits : Course α → Command α → Nat → Prop}

/-- The command names own constraints only if they were handed out, and comes to an end. -/
def Honest (course : Course α) (command : Command α) (steps : Nat) : Prop :=
  (∀ handle ∈ command.named, handle.owner = course.solver.identity → handle.id ∈ course.issued) ∧
    (course.solver.perform command steps).1.isFinal = true

instance (course : Course α) (command : Command α) (steps : Nat) :
    Decidable (course.Honest command steps) :=
  inferInstanceAs (Decidable (_ ∧ _))

/-- What is more, every strength that it states can be compared. -/
def HonestlyPriced (course : Course α) (command : Command α) (steps : Nat) : Prop :=
  course.Honest command steps ∧ ∀ strength ∈ command.stated, strength.weight ≤ strength.weight

instance (course : Course α) (command : Command α) (steps : Nat) :
    Decidable (course.HonestlyPriced command steps) :=
  inferInstanceAs (Decidable (_ ∧ _))

/-- The command is admitted, and all deals are still fair after it. -/
def DealsFairly (admits : Course α → Command α → Nat → Prop) (course : Course α)
    (command : Command α) (steps : Nat) : Prop :=
  admits course command steps ∧ Deal.Fair (course.next command steps).deals

instance [∀ course command steps, Decidable (admits course command steps)] (course : Course α)
    (command : Command α) (steps : Nat) : Decidable (course.DealsFairly admits command steps) :=
  inferInstanceAs (Decidable (_ ∧ _))

/-- The course of some history in which every command was admitted and all deals were fair. -/
abbrev Balanced (admits : Course α → Command α → Nat → Prop) (course : Course α) : Prop :=
  course.Arises (DealsFairly admits)

theorem Balanced.fair (balanced : course.Balanced admits) : Deal.Fair course.deals := by
  cases balanced with
  | start identity options => exact fun id => Nat.zero_le _
  | step _ admitted => exact admitted.2

/-- One command leaves squared accounts behind if it is honest and fair. -/
theorem squared_next (dependable : Scalar.Dependable α) {command : Command α} {steps : Nat}
    (accountable : course.solver.Accountable)
    (squared : course.solver.Squared capped course.issued course.deals)
    (honest : course.Honest command steps)
    (priced : capped → ∀ strength ∈ command.stated, strength.weight ≤ strength.weight)
    (fair : Deal.Fair (course.next command steps).deals) :
    (course.next command steps).solver.Squared capped (course.next command steps).issued
      (course.next command steps).deals := by
  obtain ⟨own, final⟩ := honest
  unfold next at fair ⊢
  have covered : ∀ handle state, command = .giveUpVariable handle →
      course.solver.findVariable handle = .ok state →
        0 ≤ Deal.balance (.gaveUp handle.id :: course.deals) handle.id := by
    rintro handle state rfl is_state
    have given : Command.dealings course.solver (.giveUpVariable handle)
        (course.solver.perform (.giveUpVariable handle) steps).1 = [.gaveUp handle.id] := by
      simp only [Command.dealings, is_state]
    rw [given] at fair
    have created := squared.created _ state (Solver.of_findVariable is_state).2
    exact fair.covered (List.mem_cons_of_mem _ created)
  have here := Solver.perform_meets
    (command.squares dependable accountable squared own priced covered) steps
  revert here final
  cases (course.solver.perform command steps).1 with
  | answered reply => exact fun _ => id
  | refused reason => exact fun _ => id
  | paused => exact fun final => Bool.noConfusion final

/-- All accounts of a balanced history are squared. -/
theorem Balanced.squared (dependable : Scalar.Dependable α) (balanced : course.Balanced admits)
    (honest : ∀ {course command steps}, admits course command steps →
      course.Honest command steps)
    (priced : capped → ∀ {course command steps}, admits course command steps →
      ∀ strength ∈ command.stated, strength.weight ≤ strength.weight) :
    course.solver.Accountable ∧ course.solver.Squared capped course.issued course.deals := by
  induction balanced with
  | start identity options => exact ⟨⟨_, .new identity options⟩, .new capped identity options⟩
  | step _ admitted inductionHypothesis =>
      obtain ⟨accountable, squared⟩ := inductionHypothesis
      obtain ⟨admitted, fair⟩ := admitted
      have final := (honest admitted).2
      exact ⟨(accountable.perform dependable.lowered_counts _ _).2 final,
        squared_next dependable accountable squared (honest admitted)
          (fun is_capped => priced is_capped admitted) fair⟩

end Course

namespace Solver

/-- A variable is registered exactly as long as a caller holds it or a constraint mentions it, and
it has one reference for each of them. Constraints mention registered variables only. -/
structure ExactReferences (deals : List Deal) (solver : Solver α) : Prop where
  registered_iff : ∀ id, (∃ state, solver.unknowns.get? ⟨id, .external⟩ = some state) ↔
    .created id ∈ deals ∧ 0 < 1 + deals.count (.shared id) - deals.count (.gaveUp id) +
      solver.constraints.mentioning id
  references : ∀ id state, solver.unknowns.get? ⟨id, .external⟩ = some state →
    state.references = 1 + deals.count (.shared id) - deals.count (.gaveUp id) +
      solver.constraints.mentioning id
  known : ∀ key constraint, solver.constraints.get? key = some constraint →
    ∀ term ∈ constraint.expression.terms, term.1.kind = .external ∧
      ∃ state, solver.unknowns.get? term.1 = some state

theorem Squared.exactReferences (accountable : solver.Accountable)
    (squared : solver.Squared capped issued deals) (fair : Deal.Fair deals) :
    solver.ExactReferences deals := by
  obtain ⟨kinds, accounted⟩ := accountable
  have held : ∀ {id}, .created id ∈ deals → Deal.balance deals id =
      ((1 + deals.count (.shared id) - deals.count (.gaveUp id) : Nat) : Int) := by
    intro id created
    have some_time := List.count_pos_iff.mpr created
    have once := squared.once id
    have given := fair id
    rw [Deal.balance_eq]
    omega
  constructor
  · intro id
    constructor
    · rintro ⟨state, found⟩
      have created := squared.created _ state found
      have exactly := squared.exact _ state found
      have positive := squared.positive _ state found
      rw [held created] at exactly
      refine ⟨created, ?_⟩
      dsimp only at exactly
      omega
    · rintro ⟨created, referred⟩
      rw [← Option.ne_none_iff_exists']
      intro absent
      obtain ⟨unheld, unmentioned, _⟩ := squared.settled _ absent
      rw [held created] at unheld
      dsimp only at unheld unmentioned
      omega
  · intro id state found
    have exactly := squared.exact _ state found
    rw [held (squared.created _ state found)] at exactly
    dsimp only at exactly
    omega
  · intro key constraint found term member
    obtain ⟨state, there⟩ := squared.over_known found term member
    have proper := ((accounted.filed.placed key constraint found).expression term member).1
    exact ⟨proper.2.trans (accounted.registered _ state there).2.1, state, there⟩

end Solver

/-- In every balanced history references are exact. -/
theorem references_exact {course : Course α} (dependable : Scalar.Dependable α)
    (balanced : course.Balanced Course.Honest) : course.solver.ExactReferences course.deals := by
  have kept : course.solver.Accountable ∧
      course.solver.Squared False course.issued course.deals :=
    balanced.squared dependable id False.elim
  exact kept.2.exactReferences kept.1 balanced.fair

/-- A solver of double-precision numbers after some commands. -/
def tradedDouble (commands : List (Command Float)) : Course Float :=
  (Course.start 0 ⟨false, 1⟩).follow 20 commands

theorem balanced_tradedDouble {admits : Course Float → Command Float → Nat → Prop}
    {commands : List (Command Float)}
    (admitted : (Course.start 0 ⟨false, 1⟩).Admits (Course.DealsFairly admits) 20 commands) :
    (tradedDouble commands).Balanced admits :=
  (Course.Arises.start 0 ⟨false, 1⟩).follow admitted

/-- A variable is shared, written into a constraint, edited, and given up by everyone. -/
def Command.lending : List (Command Float) :=
  [createVariable, shareVariable ⟨1, 0⟩, createConstraint .required, addTerm ⟨1, 0⟩ ⟨1, 0⟩ 1,
    beginEdit ⟨1, 0⟩ .medium, giveUpVariable ⟨1, 0⟩, giveUpVariable ⟨1, 0⟩]

/-- The constraint and the edit still refer to the variable. -/
theorem references_exact_lent : (tradedDouble Command.lending).solver.ExactReferences
      (tradedDouble Command.lending).deals ∧
    ((tradedDouble Command.lending).solver.unknowns.get? ⟨1, .external⟩).map Variable.references =
      some 2 :=
  ⟨references_exact Binary64.dependable (balanced_tradedDouble (by decide +kernel)),
    by decide +kernel⟩

namespace Solver

/-- Every edited variable has a hidden constraint of its own, which takes part, may be missed, and
sets the variable alone equal to a number. Every constraint that was not handed out is the hidden
constraint of one variable. -/
structure CoherentEdits (issued : List Nat) (solver : Solver α) : Prop where
  hidden : ∀ id state key, solver.unknowns.get? ⟨id, .external⟩ = some state →
    state.edit = some key → key.id ∉ issued ∧ ∃ constraint,
      solver.constraints.get? key = some constraint ∧ constraint.isActive = true ∧
      constraint.strength.isRequired = false ∧
      constraint.strength.weight ≤ (Strength.strong : Strength α).weight ∧
      constraint.relation = some .equal ∧
      constraint.expression.terms = [(⟨id, .external⟩, 1)]
  apart : ∀ id id' state state' key key', solver.unknowns.get? ⟨id, .external⟩ = some state →
    solver.unknowns.get? ⟨id', .external⟩ = some state' → state.edit = some key →
      state'.edit = some key' → key.id = key'.id → id = id'
  claimed : ∀ key constraint, solver.constraints.get? key = some constraint → key.id ∉ issued →
    ∃! id, ∃ state edit, solver.unknowns.get? ⟨id, .external⟩ = some state ∧
      state.edit = some edit ∧ edit.id = key.id

theorem Squared.coherentEdits (squared : solver.Squared True issued deals) :
    solver.CoherentEdits issued := by
  constructor
  · intro id state key found edited
    obtain ⟨unissued, constraint, there, tethers⟩ := squared.held ⟨id, .external⟩ key
      ⟨state, found, edited⟩
    exact ⟨unissued, constraint, there, tethers.active, tethers.soft, tethers.weight trivial,
      tethers.relation, tethers.alone⟩
  · intro id id' state state' key key' found found' edited edited' same
    exact squared.unique ⟨state, found, edited⟩ ⟨state', found', edited'⟩ same
  · intro key constraint found unissued
    obtain ⟨symbol, edit, ⟨state, there, edited⟩, same⟩ :=
      (squared.claimed key constraint found).resolve_left unissued
    have named : solver.unknowns.get? ⟨symbol.id, .external⟩ = some state := by
      rw [← there]
      exact solver.unknowns.get?_congr rfl
    refine ⟨symbol.id, ⟨state, edit, named, edited, same⟩, ?_⟩
    rintro id ⟨state', edit', there', edited', same'⟩
    exact squared.unique ⟨state', there', edited'⟩ ⟨state, there, edited⟩ (same'.trans same.symm)

end Solver

/-- In every balanced history whose strengths can be compared edits are coherent. -/
theorem edits_coherent {course : Course α} (dependable : Scalar.Dependable α)
    (balanced : course.Balanced Course.HonestlyPriced) :
    course.solver.CoherentEdits course.issued := by
  have kept : course.solver.Accountable ∧ course.solver.Squared True course.issued course.deals :=
    balanced.squared dependable And.left fun _ _ _ _ admitted => admitted.2
  exact kept.2.coherentEdits

/-- Two variables are edited, one of them by a suggestion, and the edit of the other ends. -/
def Command.steering : List (Command Float) :=
  [createVariable, createVariable, beginEdit ⟨1, 0⟩ .required, suggest ⟨2, 0⟩ 5,
    beginEdit ⟨2, 0⟩ .weak, endEdit ⟨1, 0⟩]

/-- The second variable is still edited, and the constraints number one. -/
theorem edits_coherent_steered : (tradedDouble Command.steering).solver.CoherentEdits
      (tradedDouble Command.steering).issued ∧
    ((tradedDouble Command.steering).solver.unknowns.get? ⟨2, .external⟩).map Variable.edit =
      some (some ⟨2, .external⟩) ∧ (tradedDouble Command.steering).solver.constraintCount = 1 :=
  ⟨edits_coherent Binary64.dependable (balanced_tradedDouble (by decide +kernel)),
    by decide +kernel, by decide +kernel⟩

end SoftSimplex
