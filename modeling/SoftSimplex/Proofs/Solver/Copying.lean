import SoftSimplex.Proofs.Form.Reduced
import SoftSimplex.Proofs.Solver.Changes
import SoftSimplex.Proofs.Solver.Completion

/-!
# Merging into a copy what was copied

A copy of a constraint has the expression of its source, and holds one more reference to every
variable in it. Merging the source into the copy once more, times minus one, takes everything out
again, and the references with it, unless the relation is "at least". What is merged counts for the
side that is being written, and behind "at least" this turns it around, so that the copy ends up
with twice the expression of its source and keeps its references.
-/

namespace SoftSimplex

namespace Action

open Solver

variable {ρ : Type} {solver between after : Solver Rat} {terms : List (Symbol × Rat)}
  {change : Variable Rat → Variable Rat}

/-- The variables in the terms have changed, and nothing else. -/
structure Adjusts (terms : List (Symbol × Rat)) (change : Variable Rat → Variable Rat)
    (solver after : Solver Rat) : Prop where
  rest : after = { solver with unknowns := after.unknowns }
  unknowns : ∀ symbol, after.unknowns.get? symbol = (solver.unknowns.get? symbol).map fun state =>
    if symbol.id ∈ terms.map fun term => term.1.id then change state else state

theorem adjusts_nil (change : Variable Rat → Variable Rat) (solver : Solver Rat) :
    Adjusts [] change solver solver :=
  ⟨rfl, fun symbol => by simp⟩

theorem Adjusts.cons {term : Symbol × Rat} (first : Adjusts [term] change solver between)
    (rest : Adjusts terms change between after)
    (apart : term.1.id ∉ terms.map fun term => term.1.id) :
    Adjusts (term :: terms) change solver after := by
  refine ⟨?_, fun symbol => ?_⟩
  · rw [rest.rest, first.rest]
  · rw [rest.unknowns, first.unknowns, Option.map_map]
    congr 1
    funext state
    simp only [Function.comp_apply, List.map_cons, List.map_nil, List.mem_cons, List.not_mem_nil,
      or_false]
    by_cases here : symbol.id = term.1.id
    · rw [if_pos here, if_pos (Or.inl here), if_neg (here ▸ apart)]
    · rw [if_neg here]
      simp only [here, false_or]

/-- Rounds that change one variable each, as long as it is in a state to begin with. -/
theorem completes_forM {round : Symbol × Rat → Action Rat PUnit} {ready : Variable Rat → Prop}
    (each : ∀ term ∈ terms, ∀ before : Solver Rat,
      (∀ state, before.unknowns.get? term.1 = some state → ready state) →
        (round term).Completes before 0 fun _ after => Adjusts [term] change before after)
    (distinct : Layout.Distinct terms)
    (all_ready : ∀ term ∈ terms, ∀ state, solver.unknowns.get? term.1 = some state → ready state) :
    (terms.forM round).Completes solver 0 fun _ after => Adjusts terms change solver after := by
  induction terms generalizing solver with
  | nil => exact Completes.pure (adjusts_nil change solver)
  | cons term rest inductionHypothesis =>
      obtain ⟨apart, rest_distinct⟩ := List.pairwise_cons.mp distinct
      refine Completes.before (each term List.mem_cons_self solver
        (all_ready term List.mem_cons_self)) fun _ middle first => ?_
      have rest_ready : ∀ other ∈ rest, ∀ state,
          middle.unknowns.get? other.1 = some state → ready state := by
        intro other member state found
        have elsewhere : ¬ other.1.id ∈ [term].map fun term => term.1.id := by
          simpa using (apart other member).symm
        rw [first.unknowns] at found
        simp only [elsewhere, if_false, Option.map_id'] at found
        exact all_ready other (List.mem_cons_of_mem _ member) state found
      refine (inductionHypothesis (fun other member => each other (List.mem_cons_of_mem _ member))
        rest_distinct rest_ready).mono fun _ _ later => first.cons later ?_
      rintro again
      obtain ⟨other, member, same⟩ := List.mem_map.mp again
      exact apart other member same.symm

theorem adjusts_modify (solver : Solver Rat) (term : Symbol × Rat) :
    Adjusts [term] change solver
      { solver with unknowns := solver.unknowns.modify term.1 change } := by
  refine ⟨rfl, fun symbol => ?_⟩
  dsimp only
  rw [Catalog.get?_modify]
  by_cases same : symbol.id = term.1.id
  · simp [same]
  · simp [same]

/-- A variable that comes into an expression gains a reference. -/
theorem completes_gain {was now : LinearForm Rat} {term : Symbol × Rat}
    (out : was.mentions term.1 = false) (into : now.mentions term.1 = true) (before : Solver Rat) :
    (trackTerm term.1 was now).Completes before 0
      fun _ after => Adjusts [term] Variable.retained before after := by
  unfold trackTerm
  rw [out, into]
  exact Completes.update (adjusts_modify before term)

/-- A variable that goes out of an expression loses a reference, and stays if there is another. -/
theorem completes_loss {was now : LinearForm Rat} {term : Symbol × Rat}
    (into : was.mentions term.1 = true) (out : now.mentions term.1 = false) {before : Solver Rat}
    (shared : ∀ state, before.unknowns.get? term.1 = some state → 1 < state.references) :
    (trackTerm term.1 was now).Completes before 0
      fun _ after => Adjusts [term] Variable.released before after := by
  have dropped : (dropReference term.1 : Action Rat (Option Symbol)).Completes before 0
      fun edit? after => edit? = none ∧ Adjusts [term] Variable.released before after := by
    apply Completes.read_bind
    cases found : before.unknowns.get? term.1 with
    | none =>
        refine Completes.pure ⟨rfl, rfl, fun symbol => ?_⟩
        by_cases same : symbol.id = term.1.id
        · rw [before.unknowns.get?_congr same, found]
          rfl
        · simp [same]
    | some state =>
        dsimp only
        rw [if_pos (shared state found)]
        exact Completes.update_bind (Completes.pure ⟨rfl, adjusts_modify before term⟩)
  unfold trackTerm
  rw [into, out]
  refine Completes.before dropped ?_
  rintro _ after ⟨rfl, adjusts⟩
  exact Completes.pure adjusts

/-- Nothing happens to a variable that stays in an expression. -/
theorem completes_stay {was now : LinearForm Rat} {term : Symbol × Rat}
    (into : was.mentions term.1 = true) (still : now.mentions term.1 = true)
    (before : Solver Rat) :
    (trackTerm term.1 was now).Completes before 0
      fun _ after => Adjusts [term] id before after := by
  unfold trackTerm
  rw [into, still]
  exact Completes.pure ⟨rfl, fun symbol => by simp⟩

/-! ## Merging -/

/-- A constraint has been replaced, and the variables in the terms have changed. -/
def Merged (handle : ConstraintHandle) (written : Constraint Rat) (terms : List (Symbol × Rat))
    (change : Variable Rat → Variable Rat) (solver after : Solver Rat) : Prop :=
  Adjusts terms change
    { solver with constraints := solver.constraints.modify handle.key fun _ => written } after

theorem Merged.constraints {handle : ConstraintHandle} {written : Constraint Rat}
    (merged : Merged handle written terms change solver after) :
    after.constraints = solver.constraints.modify handle.key fun _ => written :=
  (congrArg Solver.constraints (Adjusts.rest merged)).trans rfl

theorem Merged.identity {handle : ConstraintHandle} {written : Constraint Rat}
    (merged : Merged handle written terms change solver after) :
    after.identity = solver.identity :=
  (congrArg Solver.identity (Adjusts.rest merged)).trans rfl

theorem completes_mergeConstraint {handle source : ConstraintHandle}
    {added constraint : Constraint Rat} {factor : Rat} (ready : Variable Rat → Prop)
    (is_added : solver.findConstraint source = .ok added)
    (is_constraint : solver.findInactive handle = .ok constraint)
    (each : ∀ term ∈ added.expression.terms, ∀ before : Solver Rat,
      (∀ state, before.unknowns.get? term.1 = some state → ready state) →
        (trackTerm term.1 constraint.expression
          (constraint.addForm added.expression factor).expression).Completes before 0
            fun _ after => Adjusts [term] change before after)
    (all_ready : ∀ term ∈ added.expression.terms, ∀ state,
      solver.unknowns.get? term.1 = some state → ready state) :
    (mergeConstraint handle source factor).Completes solver 0 fun _ after =>
      Merged handle (constraint.addForm added.expression factor) added.expression.terms change
        solver after := by
  refine Completes.read_bind (Completes.granted_bind is_added ?_)
  refine Completes.read_bind (Completes.granted_bind is_constraint (Completes.update_bind ?_))
  exact completes_forM each added.expression.coefficients.distinct all_ready

end Action

/-! ## Copying -/

section Copying

open SoftSimplex.Action Solver

variable {solver after : Solver Rat} {source handle : ConstraintHandle}
  {constraint copy : Constraint Rat}

/-- A copy has been made: it has the expression and the relation of its source and takes no part,
and every variable in the expression has gained a reference. -/
structure Copied (source handle : ConstraintHandle) (constraint copy : Constraint Rat)
    (solver after : Solver Rat) : Prop where
  still_there : after.findConstraint source = .ok constraint
  found : after.findInactive handle = .ok copy
  apart : source.key.id ≠ handle.key.id
  inactive : copy.isActive = false
  relation : copy.relation = constraint.relation
  reduced : copy.expression.Reduced
  spanned : copy.expression.Over fun symbol => symbol.id ≠ 0
  eval : ∀ assignment, copy.expression.eval assignment = constraint.expression.eval assignment
  unknowns : ∀ symbol, after.unknowns.get? symbol = (solver.unknowns.get? symbol).map fun state =>
    if constraint.expression.mentions symbol then state.retained else state

/-- An expression mentions the symbols that bear the number of one of its terms. -/
theorem LinearForm.mem_numbers_iff (form : LinearForm Rat) (symbol : Symbol) :
    symbol.id ∈ form.terms.map (fun term => term.1.id) ↔ form.mentions symbol = true := by
  rw [List.mem_map]
  constructor
  · rintro ⟨term, member, same⟩
    rw [← form.mentions_congr same]
    exact mentions_of_mem member
  · intro mentioned
    obtain ⟨term, member, same, _⟩ := exists_term_of_mentions mentioned
    exact ⟨term, member, same⟩

/-- A reduced form that is a multiple of another one mentions the same symbols, or none. -/
theorem LinearForm.Reduced.mentions_of_eval {form other : LinearForm Rat} (reduced : form.Reduced)
    (other_reduced : other.Reduced) {factor : Rat}
    (eval : ∀ assignment, form.eval assignment = factor * other.eval assignment) {symbol : Symbol}
    (proper : symbol.id ≠ 0) :
    form.mentions symbol = true ↔ factor ≠ 0 ∧ other.mentions symbol = true := by
  rw [reduced.mentions_iff, other_reduced.mentions_iff, coefficient_of_eval eval proper,
    mul_ne_zero_iff]

/-- A reduced form that always vanishes has no terms. -/
theorem LinearForm.Reduced.terms_eq_nil {form other : LinearForm Rat} (reduced : form.Reduced)
    (spanned : form.Over fun symbol => symbol.id ≠ 0)
    (eval : ∀ assignment, form.eval assignment = 0 * other.eval assignment) : form.terms = [] := by
  refine List.eq_nil_iff_forall_not_mem.mpr fun term member => reduced term member ?_
  rw [← coefficient_of_mem member, coefficient_of_eval eval (spanned term member), zero_mul]

theorem Constraint.eval_addForm (constraint : Constraint Rat) (form : LinearForm Rat)
    (factor : Rat) (assignment : Assignment) :
    (constraint.addForm form factor).expression.eval assignment =
      constraint.expression.eval assignment +
        form.eval assignment * (factor * constraint.sideSign) :=
  LinearForm.eval_plusMultiple _ _ _ _

/-- What a blank constraint has after a form was added to it. -/
theorem Constraint.eval_addForm_blank (strength : Strength Rat) (form : LinearForm Rat)
    (assignment : Assignment) :
    ((Constraint.blank strength).addForm form 1).expression.eval assignment =
      1 * form.eval assignment := by
  have empty : (Constraint.blank strength).expression.eval assignment = 0 :=
    LinearForm.eval_ofConstant 0 assignment
  rw [eval_addForm, sideSign_blank, empty, mul_one, mul_one, one_mul, zero_add]

theorem Solver.findInactive_of_get? (owned : handle.owner = solver.identity)
    (found : solver.constraints.get? handle.key = some constraint)
    (inactive : constraint.isActive = false) : solver.findInactive handle = .ok constraint := by
  unfold findInactive
  rw [findConstraint_of_get? owned found]
  simp [inactive]

namespace Action

variable (found : solver.findConstraint source = .ok constraint)
  (reduced : constraint.expression.Reduced)
  (proper : constraint.expression.Over fun symbol => symbol.id ≠ 0)

include found reduced proper

/-- Copying a constraint is not refused if the constraint is there. -/
theorem completes_copyConstraint (below : source.key.id ≤ solver.lastConstraint)
    (strength : Strength Rat) :
    (copyConstraint source strength).Completes solver 0 fun handle after =>
      ∃ copy, Copied source handle constraint copy solver after := by
  obtain ⟨owned, there⟩ := of_findConstraint found
  refine Completes.read_bind (Completes.granted_bind found ?_)
  let given := if Scalar.negligible strength.weight then constraint.strength else strength
  let blank := Constraint.blank given.orRequired
  let created : Solver Rat := { solver with
    lastConstraint := solver.lastConstraint + 1
    constraints := solver.constraints.insert ⟨solver.lastConstraint + 1, .external⟩ blank }
  let handle : ConstraintHandle := ⟨solver.lastConstraint + 1, solver.identity⟩
  have creates : (createConstraint given).Completes solver 0 fun result after =>
      result = handle ∧ after = created :=
    Completes.read_bind (Completes.update_bind (Completes.pure ⟨rfl, rfl⟩))
  refine Completes.before creates ?_
  rintro _ _ ⟨rfl, rfl⟩
  have apart : source.key.id ≠ handle.key.id := (Nat.lt_succ_of_le below).ne
  have still_there : created.findConstraint source = .ok constraint :=
    findConstraint_of_get? owned ((Catalog.get?_insert _ _ _ _).trans ((if_neg apart).trans there))
  have is_blank : created.findInactive handle = .ok blank :=
    findInactive_of_get? rfl ((Catalog.get?_insert _ _ _ _).trans (if_pos rfl)) rfl
  let written := blank.addForm constraint.expression 1
  have written_reduced : written.expression.Reduced :=
    (LinearForm.Reduced.ofConstant 0).plusMultiple _ _
  have eval := Constraint.eval_addForm_blank given.orRequired constraint.expression
  have into : ∀ term ∈ constraint.expression.terms, written.expression.mentions term.1 = true := by
    intro term member
    exact (written_reduced.mentions_of_eval reduced eval (proper term member)).mpr
      ⟨one_ne_zero, LinearForm.mentions_of_mem member⟩
  refine Completes.before (completes_mergeConstraint (fun _ => True) still_there is_blank
    (fun term member before _ => completes_gain rfl (into term member) before)
    fun _ _ _ _ => trivial) fun _ merged is_merged => ?_
  have constraints := is_merged.constraints
  have identity : merged.identity = solver.identity := is_merged.identity
  refine Completes.update_bind (Completes.pure ⟨{ written with relation := constraint.relation },
    findConstraint_of_get? (owned.trans identity.symm) ?_,
    findInactive_of_get? identity.symm ?_ rfl, apart, rfl, rfl, written_reduced,
    (LinearForm.Over.ofConstant 0).plusMultiple proper _,
    fun assignment => (eval assignment).trans (one_mul _), fun symbol => ?_⟩)
  · dsimp only
    rw [Catalog.get?_modify, if_neg apart, constraints, Catalog.get?_modify, if_neg apart]
    exact (of_findConstraint still_there).2
  · dsimp only
    rw [Catalog.get?_modify, if_pos rfl, constraints, Catalog.get?_modify, if_pos rfl,
      (of_findInactive is_blank).2.1]
    rfl
  · refine (is_merged.unknowns symbol).trans ?_
    simp only [LinearForm.mem_numbers_iff]
    rfl

end Action

namespace Copied

variable (copied : Copied source handle constraint copy solver after)

include copied

/-- What is merged back counts for the side that is being written. -/
theorem eval_merged (assignment : Assignment) :
    (copy.addForm constraint.expression (-1)).expression.eval assignment =
      (if constraint.relation = some .atLeast then 2 else 0) *
        constraint.expression.eval assignment := by
  rw [copy.eval_addForm, copied.eval, Constraint.sideSign, copied.relation]
  cases constraint.relation with
  | none => simp
  | some relation => cases relation <;> simp [Relation.rightSign]; ring

theorem merged_reduced : (copy.addForm constraint.expression (-1)).expression.Reduced :=
  copied.reduced.plusMultiple _ _

variable (reduced : constraint.expression.Reduced)
  (proper : constraint.expression.Over fun symbol => symbol.id ≠ 0)

include reduced proper

theorem mentions {term : Symbol × Rat} (member : term ∈ constraint.expression.terms) :
    copy.expression.mentions term.1 = true := by
  have eval : ∀ assignment, copy.expression.eval assignment =
      1 * constraint.expression.eval assignment := fun assignment =>
    (copied.eval assignment).trans (one_mul _).symm
  exact (copied.reduced.mentions_of_eval reduced eval (proper term member)).mpr
    ⟨one_ne_zero, LinearForm.mentions_of_mem member⟩

/-- Behind "at least" the expression doubles, and its variables stay in it. -/
theorem completes_doubling (turned : constraint.relation = some .atLeast) :
    (mergeConstraint handle source (-1)).Completes after 0 fun _ last =>
      Merged handle (copy.addForm constraint.expression (-1)) constraint.expression.terms id
        after last := by
  refine completes_mergeConstraint (fun _ => True) copied.still_there copied.found
    (fun term member before _ => ?_) fun _ _ _ _ => trivial
  have eval := copied.eval_merged
  rw [if_pos turned] at eval
  exact completes_stay (copied.mentions reduced proper member)
    ((copied.merged_reduced.mentions_of_eval reduced eval (proper term member)).mpr
      ⟨two_ne_zero, LinearForm.mentions_of_mem member⟩) before

/-- Otherwise everything goes out of the expression again. A variable that gained a reference to the
copy has another one, so that it stays. -/
theorem completes_cancelling (attended : solver.Attended)
    (straight : constraint.relation ≠ some .atLeast) :
    (mergeConstraint handle source (-1)).Completes after 0 fun _ last =>
      Merged handle (copy.addForm constraint.expression (-1)) constraint.expression.terms
        Variable.released after last := by
  refine completes_mergeConstraint (fun state => 1 < state.references) copied.still_there
    copied.found (fun term member before shared => ?_) fun term member state found => ?_
  · have eval := copied.eval_merged
    rw [if_neg straight] at eval
    refine completes_loss (copied.mentions reduced proper member) ?_ shared
    rw [← Bool.not_eq_true,
      copied.merged_reduced.mentions_of_eval reduced eval (proper term member)]
    exact fun both => both.1 rfl
  · rw [copied.unknowns, LinearForm.mentions_of_mem member] at found
    obtain ⟨before, was, rfl⟩ := Option.map_eq_some_iff.mp found
    exact Nat.succ_lt_succ (attended term.1 before was)

end Copied

/-- A copy into which its source has been merged once more, in a solver whose variables have changed. -/
structure MergedBack (source handle : ConstraintHandle) (constraint : Constraint Rat)
    (change : Variable Rat → Variable Rat) (solver last : Solver Rat) : Prop where
  source : last.findConstraint source = .ok constraint
  copy : ∃ copy, last.findConstraint handle = .ok copy ∧ copy.isActive = false ∧
    copy.relation = constraint.relation ∧ copy.expression.Reduced ∧
    (copy.expression.Over fun symbol => symbol.id ≠ 0) ∧
    ∀ assignment, copy.expression.eval assignment =
      (if constraint.relation = some .atLeast then 2 else 0) * constraint.expression.eval assignment
  unknowns : ∀ symbol, last.unknowns.get? symbol = (solver.unknowns.get? symbol).map fun state =>
    if constraint.expression.mentions symbol then change state.retained else state

theorem Copied.mergedBack (copied : Copied source handle constraint copy solver after)
    (proper : constraint.expression.Over fun symbol => symbol.id ≠ 0) {last : Solver Rat}
    {change : Variable Rat → Variable Rat}
    (merged : Merged handle (copy.addForm constraint.expression (-1)) constraint.expression.terms
      change after last) : MergedBack source handle constraint change solver last := by
  obtain ⟨owned, there⟩ := of_findConstraint copied.still_there
  obtain ⟨owned', there', inactive⟩ := of_findInactive copied.found
  refine ⟨findConstraint_of_get? (owned.trans merged.identity.symm) ?_,
    ⟨copy.addForm constraint.expression (-1),
      findConstraint_of_get? (owned'.trans merged.identity.symm) ?_, inactive, copied.relation,
      copied.merged_reduced, copied.spanned.plusMultiple proper _, copied.eval_merged⟩,
    fun symbol => ?_⟩
  · rw [merged.constraints, Catalog.get?_modify, if_neg copied.apart, there]
  · rw [merged.constraints, Catalog.get?_modify, if_pos rfl, there']
    rfl
  · rw [Adjusts.unknowns merged symbol]
    dsimp only
    rw [copied.unknowns, Option.map_map]
    congr 1
    funext state
    simp only [Function.comp_apply, LinearForm.mem_numbers_iff]
    split <;> rfl

/-- Merging back is answered, however few steps are allotted. -/
theorem Copied.perform_merge (copied : Copied source handle constraint copy solver after)
    (proper : constraint.expression.Over fun symbol => symbol.id ≠ 0)
    {change : Variable Rat → Variable Rat}
    (completes : (mergeConstraint handle source (-1)).Completes after 0 fun _ last =>
      Merged handle (copy.addForm constraint.expression (-1)) constraint.expression.terms change
        after last) (steps : Nat) :
    (after.perform (.mergeConstraint handle source (-1)) steps).1 = .answered .done ∧
      MergedBack source handle constraint change solver
        (after.perform (.mergeConstraint handle source (-1)) steps).2 := by
  have finishes : (Command.mergeConstraint handle source (-1)).action.Completes after 0
      fun reply last => reply = .done ∧ MergedBack source handle constraint change solver last :=
    Completes.before completes fun _ _ merged =>
      Completes.pure ⟨rfl, copied.mergedBack proper merged⟩
  obtain ⟨_, answered, rfl, mergedBack⟩ := finishes.perform (Nat.zero_le steps)
  exact ⟨answered, mergedBack⟩

theorem MergedBack.references_eq {last : Solver Rat} {change : Variable Rat → Variable Rat}
    (mergedBack : MergedBack source handle constraint change solver last) {counted : Nat → Nat}
    (changes : ∀ state, (change (Variable.retained state)).references = counted state.references)
    (symbol : Symbol) :
    last.references symbol = (solver.references symbol).map fun count =>
      if constraint.expression.mentions symbol then counted count else count := by
  rw [references, references, mergedBack.unknowns, Option.map_map, Option.map_map]
  congr 1
  funext state
  simp only [Function.comp_apply]
  split
  · exact changes state
  · rfl

end Copying

open Solver

/-- Merging the source of a copy into the copy, times minus one, leaves nothing in the copy and all
references as they were before the copy was made, for every constraint, live or not, whose relation
is not "at least". Behind "at least" the copy ends up with twice the expression of its source, and
keeps one reference to every variable in it. The source is as it was either way. -/
theorem merge_undoes_copy {course : Course Rat} (reached : course.Reached ⟨false, false⟩)
    {source : ConstraintHandle} {constraint : Constraint Rat}
    (found : course.solver.findConstraint source = .ok constraint) (strength : Strength Rat)
    (steps steps' : Nat) :
    ∃ handle copy,
      (course.solver.perform (.copyConstraint source strength) steps).1 =
        .answered (.constraint handle) ∧
      let copied := (course.solver.perform (.copyConstraint source strength) steps).2
      (copied.perform (.mergeConstraint handle source (-1)) steps').1 = .answered .done ∧
      let last := (copied.perform (.mergeConstraint handle source (-1)) steps').2
      last.findConstraint source = .ok constraint ∧ last.findConstraint handle = .ok copy ∧
      copy.isActive = false ∧ copy.relation = constraint.relation ∧
      if constraint.relation = some .atLeast then
        copy.expression.constant = 2 * constraint.expression.constant ∧
        (∀ symbol : Symbol, symbol.id ≠ 0 → copy.expression.coefficient symbol =
          2 * constraint.expression.coefficient symbol) ∧
        ∀ symbol, last.references symbol = (course.solver.references symbol).map fun count =>
          if constraint.expression.mentions symbol then count + 1 else count
      else
        copy.expression.terms = [] ∧ copy.expression.constant = 0 ∧
        ∀ symbol, last.references symbol = course.solver.references symbol := by
  obtain ⟨kinds, offset, standing, _⟩ := reached.settled
  obtain ⟨_, there⟩ := of_findConstraint found
  have reduced := standing.reduced _ constraint there
  have proper : constraint.expression.Over fun symbol => symbol.id ≠ 0 :=
    (standing.expression _ constraint there).mono fun _ both => both.1.1.1
  have copies : (Command.copyConstraint source strength).action.Completes course.solver 0
      fun reply after => ∃ handle copy, reply = .constraint handle ∧
        Copied source handle constraint copy course.solver after :=
    Action.Completes.map ((Action.completes_copyConstraint found reduced proper
      (standing.key_below _ constraint there) strength).mono
        fun handle _ ⟨copy, copied⟩ => ⟨handle, copy, rfl, copied⟩)
  obtain ⟨_, is_copied, handle, copy, rfl, copied⟩ := copies.perform (Nat.zero_le steps)
  by_cases turned : constraint.relation = some .atLeast
  · obtain ⟨is_merged, mergedBack⟩ := copied.perform_merge proper
      (copied.completes_doubling reduced proper turned) steps'
    obtain ⟨merged, is_there, inactive, relation, _, _, eval⟩ := mergedBack.copy
    rw [if_pos turned] at eval
    refine ⟨handle, merged, is_copied, is_merged, mergedBack.source, is_there, inactive, relation,
      ?_⟩
    rw [if_pos turned]
    exact ⟨LinearForm.constant_of_eval eval, fun _ => LinearForm.coefficient_of_eval eval,
      mergedBack.references_eq fun _ => rfl⟩
  · obtain ⟨is_merged, mergedBack⟩ := copied.perform_merge proper
      (copied.completes_cancelling reduced proper reached.attended turned) steps'
    obtain ⟨merged, is_there, inactive, relation, merged_reduced, spanned, eval⟩ := mergedBack.copy
    rw [if_neg turned] at eval
    refine ⟨handle, merged, is_copied, is_merged, mergedBack.source, is_there, inactive, relation,
      ?_⟩
    rw [if_neg turned]
    refine ⟨merged_reduced.terms_eq_nil spanned eval, ?_, fun symbol => ?_⟩
    · rw [LinearForm.constant_of_eval eval, zero_mul]
    · rw [mergedBack.references_eq (fun state => (rfl : _ = id state.references)) symbol]
      simp

/-- A variable, and a live constraint that compares it with five. -/
def compared (relation : Relation) : Course Rat :=
  (Course.start 0 {}).follow 20 (.createVariable :: Command.bound 1 relation 5)

theorem reached_compared (relation : Relation) : (compared relation).Reached ⟨false, false⟩ := by
  cases relation <;> exact (Course.Arises.start 0 {}).follow (by decide +kernel)

/-- The copy of an equality is emptied, and the variable has the references that it had. -/
theorem merge_undoes_copy_of_equality :
    ∃ handle copy,
      (((compared .equal).solver.perform (.copyConstraint ⟨1, 0⟩ .weak) 0).2.perform
        (.mergeConstraint handle ⟨1, 0⟩ (-1)) 0).2.findConstraint handle = .ok copy ∧
      copy.expression.terms = [] ∧
      (((compared .equal).solver.perform (.copyConstraint ⟨1, 0⟩ .weak) 0).2.perform
        (.mergeConstraint handle ⟨1, 0⟩ (-1)) 0).2.references ⟨1, .external⟩ = some 2 := by
  have equality : ((compared .equal).solver.constraints.get? ⟨1, .external⟩).map
      Constraint.relation = some (some .equal) := by decide +kernel
  obtain ⟨constraint, there, relation⟩ := Option.map_eq_some_iff.mp equality
  have found : (compared .equal).solver.findConstraint ⟨1, 0⟩ = .ok constraint :=
    findConstraint_of_get? (by decide +kernel) there
  obtain ⟨handle, copy, _, _, _, copied, _, _, emptied⟩ :=
    merge_undoes_copy (reached_compared .equal) found .weak 0 0
  rw [if_neg (by rw [relation]; decide)] at emptied
  exact ⟨handle, copy, copied, emptied.1, (emptied.2.2 _).trans (by decide +kernel)⟩

/-- Not every copy is emptied: behind "at least" it is doubled. -/
theorem merge_doubles_copy :
    ¬ ∀ course : Course Rat, course.Reached ⟨false, false⟩ →
      ∀ source constraint strength steps handle,
      course.solver.findConstraint source = .ok constraint →
      (course.solver.perform (.copyConstraint source strength) steps).1 =
        .answered (.constraint handle) →
      ((course.solver.perform (.copyConstraint source strength) steps).2.perform
        (.mergeConstraint handle source (-1)) steps).2.termCountOf handle = 0 := by
  intro emptied
  obtain ⟨constraint, there⟩ := Option.isSome_iff_exists.mp
    (by decide +kernel : ((compared .atLeast).solver.constraints.get? ⟨1, .external⟩).isSome = true)
  have found : (compared .atLeast).solver.findConstraint ⟨1, 0⟩ = .ok constraint :=
    findConstraint_of_get? (by decide +kernel) there
  have none_left := emptied _ (reached_compared .atLeast) ⟨1, 0⟩ constraint .weak 0 ⟨2, 0⟩ found
    (by decide +kernel)
  revert none_left
  decide +kernel

end SoftSimplex
