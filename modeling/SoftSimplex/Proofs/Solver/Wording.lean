import Mathlib.Algebra.Order.Field.Rat
import SoftSimplex.Proofs.Form.Reduced
import SoftSimplex.Proofs.Satisfaction
import SoftSimplex.Proofs.Solver.History

/-!
# What is written is what is meant

A constraint is written bit by bit. What comes before the relation is its left side and what comes
after it is its right side, and on either side the same variable may come up any number of times.
The expression that is gathered meanwhile is, under exact arithmetic, the difference of the two
sides, with a term for exactly those variables that do not cancel. So it is as the relation asks
exactly if the two sides compare as they were written.
-/

namespace SoftSimplex

/-- What is written at once: a multiple of a variable, or a number. -/
inductive Contribution where
  | term (inside : VariableHandle) (coefficient : Rat)
  | number (constant : Rat)

namespace Contribution

/-- The command that writes a contribution. -/
def command (handle : ConstraintHandle) : Contribution → Command Rat
  | term inside coefficient => .addTerm handle inside coefficient
  | number constant => .addConstant handle constant

/-- The constraint with a contribution written to it. -/
def into (constraint : Constraint Rat) : Contribution → Constraint Rat
  | term inside coefficient => constraint.addTerm inside.symbol coefficient
  | number constant => constraint.addConstant constant

/-- The number that is contributed. -/
def constant : Contribution → Rat
  | term _ _ => 0
  | number constant => constant

/-- How often the variable with a number is contributed. -/
def weight (id : Nat) : Contribution → Rat
  | term inside coefficient => if inside.id = id then coefficient else 0
  | number _ => 0

/-- The value of a contribution. -/
def value (assignment : Assignment) : Contribution → Rat
  | term inside coefficient => coefficient * inside.symbol.under assignment
  | number constant => constant

theorem value_zero (contribution : Contribution) :
    contribution.value Assignment.zero = contribution.constant := by
  cases contribution <;> simp [value, constant]

theorem value_unit (contribution : Contribution) {id : Nat} (proper : id ≠ 0) :
    contribution.value (Assignment.unit id) = contribution.constant + contribution.weight id := by
  cases contribution with
  | number => simp [value, constant, weight]
  | term inside coefficient =>
      by_cases same : inside.id = id
      · have at_unit : inside.symbol.under (Assignment.unit id) = 1 := by
          rw [Symbol.under_of_ne_zero fun absent => proper (same.symm.trans absent),
            Assignment.unit]
          exact if_pos same
        rw [value, at_unit, constant, weight, if_pos same, mul_one, zero_add]
      · have apart : inside.symbol.id ≠ id := same
        rw [value, Symbol.under_unit_of_ne apart, constant, weight, if_neg same, mul_zero, add_zero]

end Contribution

/-- Everything written on one side of a relation. -/
abbrev Side := List Contribution

namespace Side

/-- The sum of all numbers. -/
def constant (side : Side) : Rat := (side.map Contribution.constant).sum

/-- The total coefficient of the variable with a number. -/
def weight (side : Side) (id : Nat) : Rat := (side.map fun each => each.weight id).sum

/-- The value of the side. -/
def value (side : Side) (assignment : Assignment) : Rat :=
  (side.map fun each => each.value assignment).sum

theorem value_snoc (side : Side) (contribution : Contribution) (assignment : Assignment) :
    value (side ++ [contribution]) assignment =
      side.value assignment + contribution.value assignment := by
  simp [value]

theorem value_zero (side : Side) : side.value Assignment.zero = side.constant := by
  simp only [value, constant, Contribution.value_zero]

theorem value_unit (side : Side) {id : Nat} (proper : id ≠ 0) :
    side.value (Assignment.unit id) = side.constant + side.weight id := by
  simp only [value, constant, weight, Contribution.value_unit _ proper]
  exact List.sum_map_add

end Side

namespace Relation

/-- The two sides compare as the relation says. -/
def Compares : Relation → Rat → Rat → Prop
  | atMost, left, right => left ≤ right
  | equal, left, right => left = right
  | atLeast, left, right => right ≤ left

/-- One side less the other. -/
def net : Relation → Rat → Rat → Rat
  | atLeast, left, right => left - right
  | atMost, left, right | equal, left, right => right - left

end Relation

/-! ## Wordings -/

/-- What has been written of a constraint. -/
structure Wording where
  left : Side
  relation : Option Relation
  right : Side

namespace Wording

/-- Nothing has been written. -/
def blank : Wording := ⟨[], none, []⟩

/-- One more contribution goes to the side that is being written. -/
def add (wording : Wording) (contribution : Contribution) : Wording :=
  match wording.relation with
  | none => { wording with left := wording.left ++ [contribution] }
  | some _ => { wording with right := wording.right ++ [contribution] }

/-- The relation is written. -/
def relate (wording : Wording) (relation : Relation) : Wording :=
  { wording with relation := some relation }

/-- The value of what has been written, gathered as the relation asks. -/
def value (wording : Wording) (assignment : Assignment) : Rat :=
  match wording.relation with
  | none => wording.left.value assignment
  | some relation =>
      relation.net (wording.left.value assignment) (wording.right.value assignment)

/-- A constraint stands for what has been written of it. -/
structure Reads (wording : Wording) (constraint : Constraint Rat) : Prop where
  relation : constraint.relation = wording.relation
  one_sided : wording.relation = none → wording.right = []
  reduced : constraint.expression.Reduced
  eval : ∀ assignment, constraint.expression.eval assignment = wording.value assignment

theorem reads_blank (strength : Strength Rat) : blank.Reads (Constraint.blank strength) :=
  ⟨rfl, fun _ => rfl, .ofConstant 0, fun assignment => LinearForm.eval_ofConstant 0 assignment⟩

variable {wording : Wording} {constraint other : Constraint Rat}

theorem Reads.congr (reads : wording.Reads constraint)
    (expression : other.expression = constraint.expression)
    (relation : other.relation = constraint.relation) : wording.Reads other :=
  ⟨relation.trans reads.relation, reads.one_sided, expression ▸ reads.reduced,
    expression ▸ reads.eval⟩

theorem eval_into (constraint : Constraint Rat) (contribution : Contribution)
    (assignment : Assignment) : (contribution.into constraint).expression.eval assignment =
      constraint.expression.eval assignment +
        contribution.value assignment * constraint.sideSign := by
  cases contribution with
  | term inside coefficient =>
      rw [Contribution.into, Constraint.addTerm, LinearForm.eval_plus, Contribution.value]
      ring
  | number constant =>
      rw [Contribution.into, Constraint.addConstant, LinearForm.eval, LinearForm.eval,
        Contribution.value]
      ring

/-- A contribution counts with the sign of its side. -/
theorem value_add (wording : Wording) (contribution : Contribution) (assignment : Assignment) :
    (wording.add contribution).value assignment = wording.value assignment +
      contribution.value assignment * (wording.relation.map Relation.rightSign).getD 1 := by
  obtain ⟨left, relation, right⟩ := wording
  cases relation with
  | none => simp [add, value, Side.value_snoc]
  | some relation =>
      simp only [add, value, Side.value_snoc, Option.map_some, Option.getD_some]
      cases relation <;> simp only [Relation.net, Relation.rightSign] <;> ring

theorem Reads.write (reads : wording.Reads constraint) (contribution : Contribution) :
    (wording.add contribution).Reads (contribution.into constraint) := by
  have kept : (contribution.into constraint).relation = constraint.relation := by
    cases contribution <;> rfl
  have same_relation : (wording.add contribution).relation = wording.relation := by
    unfold add
    split <;> rfl
  refine ⟨kept.trans (reads.relation.trans same_relation.symm), fun unrelated => ?_, ?_,
    fun assignment => ?_⟩
  · have before := same_relation.symm.trans unrelated
    simp only [add, before]
    exact reads.one_sided before
  · cases contribution with
    | term inside coefficient => exact reads.reduced.plus _ _
    | number constant => exact reads.reduced
  · rw [eval_into, value_add, reads.eval, Constraint.sideSign, reads.relation]

/-- What was written before the relation is turned around, unless the relation is "at least". -/
theorem Reads.relate (reads : wording.Reads constraint) (unrelated : constraint.relation = none)
    (relation : Relation) : (wording.relate relation).Reads (constraint.relate relation) := by
  have before := reads.relation.symm.trans unrelated
  have nothing := reads.one_sided before
  have so_far : ∀ assignment,
      constraint.expression.eval assignment = wording.left.value assignment := by
    intro assignment
    rw [reads.eval, value, before]
  have none_right : ∀ assignment, wording.right.value assignment = 0 := by
    intro assignment
    rw [nothing]
    rfl
  refine ⟨rfl, fun impossible => absurd impossible (Option.some_ne_none _), ?_, fun assignment => ?_⟩
  · cases relation with
    | atLeast => exact reads.reduced
    | atMost | equal => exact reads.reduced.scale (by norm_num)
  · change (relation.leftSide constraint.expression).eval assignment =
      relation.net (wording.left.value assignment) (wording.right.value assignment)
    rw [none_right]
    cases relation with
    | atLeast => rw [Relation.leftSide, so_far, Relation.net, sub_zero]
    | atMost | equal =>
        rw [Relation.leftSide, LinearForm.eval_scale, so_far, Relation.net]
        ring

section Related

variable {left right : Side} {relation : Relation}
  (reads : Reads ⟨left, some relation, right⟩ constraint)

include reads

theorem Reads.constant_eq :
    constraint.expression.constant = relation.net left.constant right.constant := by
  rw [← LinearForm.eval_zero, reads.eval]
  simp only [value, Side.value_zero]

theorem Reads.coefficient_eq {symbol : Symbol} (proper : symbol.id ≠ 0) :
    constraint.expression.coefficient symbol =
      relation.net (left.weight symbol.id) (right.weight symbol.id) := by
  rw [LinearForm.coefficient_eq _ proper, reads.eval, reads.constant_eq]
  simp only [value, Side.value_unit _ proper]
  cases relation <;> simp only [Relation.net] <;> ring

/-- There is a term for exactly those variables that do not cancel. -/
theorem Reads.mentions_iff {symbol : Symbol} (proper : symbol.id ≠ 0) :
    constraint.expression.mentions symbol = true ↔
      relation.net (left.weight symbol.id) (right.weight symbol.id) ≠ 0 := by
  rw [reads.reduced.mentions_iff, reads.coefficient_eq proper]

theorem Reads.holds_iff (assignment : Assignment) : constraint.Holds assignment ↔
    relation.Compares (left.value assignment) (right.value assignment) := by
  unfold Constraint.Holds
  rw [reads.relation, reads.eval]
  cases relation with
  | atMost => exact sub_nonneg
  | equal => exact sub_eq_zero.trans eq_comm
  | atLeast => exact sub_nonneg

end Related

end Wording

/-! ## Writing a constraint -/

namespace Action

open Solver

variable {solver : Solver Rat} {handle : ConstraintHandle}

/-- Only a constraint without a relation is given one. -/
theorem yields_setRelation_unrelated (handle : ConstraintHandle) (relation : Relation) :
    (setRelation handle relation : Action Rat Unit).Yields solver
      (fun _ _ => ∀ constraint, solver.constraints.get? handle.key = some constraint →
        constraint.relation = none) fun _ _ => True := by
  refine Yields.read_bind (Yields.demand_bind (fun constraint is_constraint => ?_) fun _ _ => trivial)
  obtain ⟨_, found, _⟩ := of_findInactive is_constraint
  split
  · exact Yields.refuse trivial
  · rename_i unrelated
    refine Yields.update fun other there => ?_
    rw [← Option.some.inj (found.symm.trans there)]
    simpa using unrelated

end Action

/-- What has been written of a constraint in the course of a history, since it was created by a
call that returned its handle. Any commands may come in between that leave what is written as it
is, refused ones among them. -/
inductive Drafts (handle : ConstraintHandle) : Course Rat → Wording → Prop where
  | create {course : Course Rat} (strength : Strength Rat) (steps : Nat)
      (reached : course.Reached ⟨false, false⟩)
      (created : (course.solver.perform (.createConstraint strength) steps).1 =
        .answered (.constraint handle)) :
      Drafts handle (course.next (.createConstraint strength) steps) .blank
  | write {course : Course Rat} {wording : Wording} (drafts : Drafts handle course wording)
      (contribution : Contribution) (steps : Nat)
      (written : (course.solver.perform (contribution.command handle) steps).1 =
        .answered .done) :
      Drafts handle (course.next (contribution.command handle) steps) (wording.add contribution)
  | relate {course : Course Rat} {wording : Wording} (drafts : Drafts handle course wording)
      (relation : Relation) (steps : Nat)
      (related : (course.solver.perform (.setRelation handle relation) steps).1 =
        .answered .done) :
      Drafts handle (course.next (.setRelation handle relation) steps) (wording.relate relation)
  | aside {course : Course Rat} {wording : Wording} (drafts : Drafts handle course wording)
      (command : Command Rat) (steps : Nat)
      (allowed : course.Allows ⟨false, false⟩ command steps)
      (kept : ∀ constraint, course.solver.findConstraint handle = .ok constraint →
        ∃ other, (course.next command steps).solver.findConstraint handle = .ok other ∧
          other.expression = constraint.expression ∧ other.relation = constraint.relation) :
      Drafts handle (course.next command steps) wording

namespace Drafts

open Solver

variable {handle : ConstraintHandle} {course : Course Rat} {wording : Wording}

/-- The course has been reached, and the constraint stands for what has been written. -/
structure Kept (handle : ConstraintHandle) (course : Course Rat) (wording : Wording) : Prop where
  reached : course.Reached ⟨false, false⟩
  issued : handle.id ∈ course.issued
  reads : ∃ constraint, course.solver.findConstraint handle = .ok constraint ∧
    wording.Reads constraint

theorem kept_create (reached : course.Reached ⟨false, false⟩) {strength : Strength Rat}
    {steps : Nat} (created : (course.solver.perform (.createConstraint strength) steps).1 =
      .answered (.constraint handle)) :
    Kept handle (course.next (.createConstraint strength) steps) .blank := by
  have yields : (Command.createConstraint strength).action.Yields course.solver
      (fun reply after => ∀ handle, reply = .constraint handle →
        ∃ constraint, after.findConstraint handle = .ok constraint ∧
          Wording.blank.Reads constraint) fun _ _ => True := by
    refine Action.Yields.map (Action.Yields.of_leads
      (Action.leads_createConstraint course.solver strength) ?_)
    rintro _ after ⟨rfl, rfl⟩ _ ⟨⟩
    refine ⟨Constraint.blank strength.orRequired, findConstraint_of_get? rfl ?_,
      Wording.reads_blank _⟩
    exact (Catalog.get?_insert _ _ _ _).trans (if_pos rfl)
  have ends := yields.perform steps
  rw [created] at ends
  refine ⟨reached.step ⟨fun _ none_named => absurd none_named List.not_mem_nil,
    fun impossible => Bool.noConfusion impossible, fun impossible => Bool.noConfusion impossible,
    by rw [created]; rfl⟩, ?_, ends handle rfl⟩
  rw [Course.next, created]
  exact List.mem_append_left _ (List.mem_singleton.mpr rfl)

/-- A command that rewrites the constraint. -/
theorem Kept.rewrite (kept : Kept handle course wording) {command : Command Rat} {steps : Nat}
    (named : command.named = [handle])
    (answered : (course.solver.perform command steps).1 = .answered .done)
    {change : Constraint Rat → Constraint Rat}
    (rewritten : Rewritten handle.key change course.solver (course.solver.perform command steps).2)
    (identity : (course.solver.perform command steps).2.identity = course.solver.identity)
    {other : Wording}
    (reads : ∀ constraint, course.solver.constraints.get? handle.key = some constraint →
      wording.Reads constraint → other.Reads (change constraint)) :
    Kept handle (course.next command steps) other := by
  obtain ⟨constraint, found, read⟩ := kept.reads
  obtain ⟨owned, there⟩ := of_findConstraint found
  obtain ⟨before, found', _, now⟩ := rewritten
  obtain rfl := Option.some.inj (there.symm.trans found')
  refine ⟨kept.reached.step ⟨fun handle' member _ => ?_, fun impossible =>
    Bool.noConfusion impossible, fun impossible => Bool.noConfusion impossible,
    by rw [answered]; rfl⟩, List.mem_append_right _ kept.issued, change constraint,
    findConstraint_of_get? (owned.trans identity.symm) now, reads constraint there read⟩
  rw [named, List.mem_singleton] at member
  rw [member]
  exact kept.issued

theorem Kept.write (kept : Kept handle course wording) {contribution : Contribution} {steps : Nat}
    (written : (course.solver.perform (contribution.command handle) steps).1 = .answered .done) :
    Kept handle (course.next (contribution.command handle) steps) (wording.add contribution) := by
  have yields : (contribution.command handle).action.Yields course.solver
      (fun _ after => Touched ⟨false, false⟩ (· ∈ course.issued) handle.key course.solver after ∧
        Rewritten handle.key contribution.into course.solver after) fun _ _ => True := by
    have own : course.solver.Issued (· ∈ course.issued) handle := fun _ => kept.issued
    cases contribution with
    | term inside coefficient =>
        exact Action.Yields.bind ((Action.yields_addTerm kept.reached.settled own inside
          coefficient).mono (fun _ _ => id) fun _ _ _ => trivial)
            fun _ _ both => Action.Yields.pure both
    | number constant =>
        exact Action.Yields.bind ((Action.yields_addConstant kept.reached.settled own
          constant).mono (fun _ _ => id) fun _ _ _ => trivial)
            fun _ _ both => Action.Yields.pure both
  have ends := yields.perform steps
  rw [written] at ends
  have named : (contribution.command handle).named = [handle] := by
    cases contribution <;> rfl
  exact kept.rewrite named written ends.2 ends.1.identity fun _ _ reads => reads.write contribution

theorem Kept.relate (kept : Kept handle course wording) {relation : Relation} {steps : Nat}
    (related : (course.solver.perform (.setRelation handle relation) steps).1 =
      .answered .done) :
    Kept handle (course.next (.setRelation handle relation) steps) (wording.relate relation) := by
  have rewrites := Action.yields_setRelation kept.reached.settled
    (fun _ => kept.issued : course.solver.Issued (· ∈ course.issued) handle) relation
  have yields : (Command.setRelation handle relation).action.Yields course.solver
      (fun _ after => (Touched ⟨false, false⟩ (· ∈ course.issued) handle.key course.solver after ∧
        Rewritten handle.key (fun state => state.relate relation) course.solver after) ∧
          ∀ constraint, course.solver.constraints.get? handle.key = some constraint →
            constraint.relation = none) fun _ _ => True :=
    Action.Yields.bind (Action.Yields.both (rewrites.mono (fun _ _ => id) fun _ _ _ => trivial)
      (Action.yields_setRelation_unrelated handle relation))
        fun _ _ both => Action.Yields.pure both
  have ends := yields.perform steps
  rw [related] at ends
  exact kept.rewrite rfl related ends.1.2 ends.1.1.identity fun constraint found reads =>
    reads.relate (ends.2 constraint found) relation

theorem kept (drafts : Drafts handle course wording) : Kept handle course wording := by
  induction drafts with
  | create _ _ reached created => exact kept_create reached created
  | write _ _ _ written inductionHypothesis => exact inductionHypothesis.write written
  | relate _ _ _ related inductionHypothesis => exact inductionHypothesis.relate related
  | aside _ _ _ allowed unchanged inductionHypothesis =>
      obtain ⟨reached, issued, constraint, found, reads⟩ := inductionHypothesis
      obtain ⟨other, found', expression, relation⟩ := unchanged constraint found
      exact ⟨reached.step allowed, List.mem_append_right _ issued, other, found',
        reads.congr expression relation⟩

end Drafts

/-- Whatever has been written before the relation of a new constraint and after it, the expression
is the difference of the two sides: its constant and its coefficients are, it has a term for
exactly those variables that do not cancel, and it is as the relation asks exactly if the two
sides compare as written. -/
theorem written_as_meant {handle : ConstraintHandle} {course : Course Rat} {left right : Side}
    {relation : Relation} (drafts : Drafts handle course ⟨left, some relation, right⟩) :
    ∃ constraint, course.solver.findConstraint handle = .ok constraint ∧
      constraint.relation = some relation ∧
      constraint.expression.constant = relation.net left.constant right.constant ∧
      (∀ symbol : Symbol, symbol.id ≠ 0 →
        constraint.expression.coefficient symbol =
            relation.net (left.weight symbol.id) (right.weight symbol.id) ∧
          (constraint.expression.mentions symbol = true ↔
            relation.net (left.weight symbol.id) (right.weight symbol.id) ≠ 0)) ∧
      ∀ assignment, constraint.Holds assignment ↔
        relation.Compares (left.value assignment) (right.value assignment) := by
  obtain ⟨constraint, found, reads⟩ := drafts.kept.reads
  exact ⟨constraint, found, reads.relation, reads.constant_eq,
    fun _ proper => ⟨reads.coefficient_eq proper, reads.mentions_iff proper⟩, reads.holds_iff⟩

/-- Two variables, and a constraint that reads `2x + 3 ≥ 2x + 5y + 1`. -/
def lopsided : Course Rat :=
  (Course.start 0 {}).follow 20 [.createVariable, .createVariable, .createConstraint .required,
    .addTerm ⟨1, 0⟩ ⟨1, 0⟩ 2, .addConstant ⟨1, 0⟩ 3, .setRelation ⟨1, 0⟩ .atLeast,
    .addTerm ⟨1, 0⟩ ⟨1, 0⟩ 2, .addTerm ⟨1, 0⟩ ⟨2, 0⟩ 5, .addConstant ⟨1, 0⟩ 1]

theorem drafts_lopsided : Drafts ⟨1, 0⟩ lopsided
    ⟨[.term ⟨1, 0⟩ 2, .number 3], some .atLeast, [.term ⟨1, 0⟩ 2, .term ⟨2, 0⟩ 5, .number 1]⟩ := by
  have reached := (Course.Arises.start 0 {} : Course.Reached ⟨false, false⟩ _).follow
    (by decide +kernel : Course.Admits _ 20 _ [.createVariable, .createVariable])
  have created : Drafts ⟨1, 0⟩ _ _ := .create .required 20 reached (by decide +kernel)
  have left := (created.write (.term ⟨1, 0⟩ 2) 20 (by decide +kernel)).write
    (.number 3) 20 (by decide +kernel)
  have related := left.relate .atLeast 20 (by decide +kernel)
  exact ((related.write (.term ⟨1, 0⟩ 2) 20 (by decide +kernel)).write
    (.term ⟨2, 0⟩ 5) 20 (by decide +kernel)).write (.number 1) 20 (by decide +kernel)

/-- The first variable cancels, and the second one is five times less on the left side. -/
theorem written_as_meant_lopsided : ∃ constraint,
    lopsided.solver.findConstraint ⟨1, 0⟩ = .ok constraint ∧
      constraint.expression.mentions ⟨1, .external⟩ = false ∧
      constraint.expression.coefficient ⟨2, .external⟩ = -5 ∧
      constraint.expression.constant = 2 := by
  obtain ⟨constraint, found, _, constant, terms, _⟩ := written_as_meant drafts_lopsided
  refine ⟨constraint, found, ?_, (terms _ (by decide)).1.trans (by decide +kernel),
    constant.trans (by decide +kernel)⟩
  rw [← Bool.not_eq_true, (terms ⟨1, .external⟩ (by decide)).2]
  decide +kernel

end SoftSimplex
