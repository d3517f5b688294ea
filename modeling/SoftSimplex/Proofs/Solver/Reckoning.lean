import SoftSimplex.Proofs.Solver.Tethers

/-!
# Reckoning

What every action does to the references that are counted and to the tethers of edited variables.
Rewriting or removing a constraint leaves corrections owed, and the walk over its terms settles them
variable by variable. No variable that goes is edited, so no removal spreads.
-/

namespace SoftSimplex

variable {α : Type} [Scalar α] {capped : Prop} {apart placed : Nat → Prop} {deals : List Deal}
  {owed : Nat → Int} {solver after : Solver α} {key symbol : Symbol} {constraint : Constraint α}
  {kinds : Nat → Symbol.Kind} {refused : Refusal → Solver α → Prop} {paused : Solver α → Prop}

namespace Constraint

variable (constraint : Constraint α) {id : Nat}

theorem occurrences_addTerm_of_ne (apart : id ≠ symbol.id) (coefficient : α) :
    (constraint.addTerm symbol coefficient).expression.occurrences id =
      constraint.expression.occurrences id :=
  constraint.expression.occurrences_plus_of_ne apart _

theorem occurrences_addForm_of_unmentioned {form : LinearForm α}
    (unmentioned : ∀ term ∈ form.terms, term.1.id ≠ id) (factor : α) :
    (constraint.addForm form factor).expression.occurrences id =
      constraint.expression.occurrences id :=
  constraint.expression.occurrences_plusMultiple_of_unmentioned unmentioned _

theorem occurrences_relate (relation : Relation) (id : Nat) :
    (constraint.relate relation).expression.occurrences id =
      constraint.expression.occurrences id := by
  cases relation with
  | atLeast => rfl
  | atMost => exact constraint.expression.occurrences_scale (-1) id
  | equal => exact constraint.expression.occurrences_scale (-1) id

end Constraint

namespace Action

open Solver

/-! ## Settling what is owed -/

/-- Giving up a reference that is owed. A variable that goes is not edited. -/
theorem tallies_dropReference (tallied : solver.Tallied capped apart placed deals owed)
    (debt : owed symbol.id = 1) :
    (dropReference symbol).Meets solver (fun edit after => edit = none ∧
      after.Tallied capped apart placed deals (Function.update owed symbol.id 0)) refused
        paused := by
  obtain ⟨state, found⟩ := tallied.knows_of_owed (by rw [debt]; decide)
  apply Meets.read_bind
  simp only [found]
  split
  · rename_i several
    apply Meets.update_bind
    refine Meets.pure ⟨rfl, ?_⟩
    have released := tallied.modify_unknown Variable.released (-1) found
      (by simp only [Variable.released]; omega) (by simp only [Variable.released]; omega)
      fun _ => rfl
    rwa [debt] at released
  · rename_i single
    obtain ⟨unedited, erased⟩ := tallied.erase_unknown found debt (Nat.le_of_not_lt single)
    rw [unedited]
    exact Meets.update_bind (Meets.pure ⟨rfl, erased⟩)

theorem tallies_releaseVariable (tallied : solver.Tallied capped apart placed deals owed)
    (debt : owed symbol.id = 1) :
    (releaseVariable symbol).Meets solver (fun _ after =>
      after.Tallied capped apart placed deals (Function.update owed symbol.id 0)) refused
        paused := by
  apply Meets.bind (tallies_dropReference tallied debt)
  rintro _ after ⟨rfl, dropped⟩
  exact Meets.pure dropped

/-- A variable gains a reference for an occurrence that came, and loses one for an occurrence that
went. -/
theorem tallies_trackTerm (tallied : solver.Tallied capped apart placed deals owed)
    {before now : LinearForm α}
    (debt : owed symbol.id = before.occurrences symbol.id - now.occurrences symbol.id) :
    (trackTerm symbol before now).Meets solver (fun _ after =>
      after.Tallied capped apart placed deals (Function.update owed symbol.id 0)) refused
        paused := by
  rw [before.occurrences_eq, now.occurrences_eq] at debt
  unfold trackTerm
  cases mentioned : before.mentions symbol <;> cases mentions : now.mentions symbol <;>
    simp only [mentioned, mentions, Bool.false_eq_true, if_true, if_false] at debt
  case false.true =>
    obtain ⟨state, found⟩ := tallied.knows_of_owed (by rw [debt]; decide)
    apply Meets.update
    have retained := tallied.modify_unknown Variable.retained 1 found rfl
      (Nat.le_add_left _ _) fun _ => rfl
    rwa [debt] at retained
  case true.false => exact tallies_releaseVariable tallied debt
  all_goals
    apply Meets.pure
    apply tallied.congr_owed
    intro id
    by_cases same : id = symbol.id
    · rw [same, Function.update_self, debt]
      rfl
    · rw [Function.update_of_ne same]

/-- A walk over the terms of a form settles what is owed, if every round settles what is owed to its
variable. -/
theorem tallies_forM {round : Symbol × α → Action α PUnit} {terms : List (Symbol × α)}
    (distinct : terms.Pairwise fun first second => first.1.id ≠ second.1.id)
    (settles : ∀ term ∈ terms, ∀ (before : Solver α) (left : Nat → Int),
      left term.1.id = owed term.1.id → before.Tallied capped apart placed deals left →
        (round term).Meets before (fun _ after => after.Tallied capped apart placed deals
          (Function.update left term.1.id 0)) refused paused)
    {left : Nat → Int} (open_terms : ∀ term ∈ terms, left term.1.id = owed term.1.id)
    (closed : ∀ id, (∀ term ∈ terms, term.1.id ≠ id) → left id = 0)
    (tallied : solver.Tallied capped apart placed deals left) :
    (terms.forM round).Meets solver (fun _ after =>
      after.Tallied capped apart placed deals fun _ => 0) refused paused := by
  induction terms generalizing solver left with
  | nil =>
      apply Meets.pure
      exact tallied.congr_owed fun id => closed id fun _ member => absurd member List.not_mem_nil
  | cons first rest inductionHypothesis =>
      obtain ⟨other, distinct⟩ := List.pairwise_cons.mp distinct
      apply Meets.bind (settles first List.mem_cons_self solver left
        (open_terms first List.mem_cons_self) tallied)
      intro _ between settled
      apply inductionHypothesis distinct
        (fun term member => settles term (List.mem_cons_of_mem _ member)) _ _ settled
      · intro term member
        rw [Function.update_of_ne (other term member).symm]
        exact open_terms term (List.mem_cons_of_mem _ member)
      · intro id unnamed
        by_cases same : id = first.1.id
        · rw [same, Function.update_self]
        · rw [Function.update_of_ne same]
          apply closed
          intro term member
          rcases List.mem_cons.mp member with rfl | inside
          · exact Ne.symm same
          · exact unnamed term inside

/-- Removing a constraint that stands apart, its references included. The depth never runs out. -/
theorem tallies_removeWithin {depth : Nat} (accounted : solver.Accounted kinds)
    (tallied : solver.Tallied capped apart placed deals fun _ => 0) (stands : apart key.id)
    (deep : depth = 0 → solver.constraints.get? key = none) :
    (removeWithin depth key).Meets solver (fun _ after => after.Tallied capped apart
      (fun id => placed id ∧ id ≠ key.id) deals fun _ => 0) refused InOrder := by
  cases depth with
  | zero => exact Meets.pure (tallied.removed (deep rfl))
  | succ depth =>
      apply Meets.bind (meets_deactivate accounted)
      intro _ between detached
      have deactivated := tallied.recast detached.recast stands
      apply Meets.read_bind
      unfold Catalog.take?
      cases found : between.constraints.get? key with
      | none => exact Meets.pure (deactivated.removed found)
      | some constraint =>
          apply Meets.update_bind
          have distinct := constraint.expression.coefficients.distinct
          apply tallies_forM distinct _ _ _ (deactivated.remove stands found)
          · exact fun id => constraint.expression.occurrences id
          · intro term member before left same tallied
            have debt : left term.1.id = 1 := by
              rw [same, constraint.expression.occurrences_of_mem member]
              rfl
            apply Meets.bind (tallies_dropReference tallied debt)
            rintro _ after ⟨rfl, dropped⟩
            exact Meets.pure dropped
          · exact fun term _ => zero_add _
          · intro id unnamed
            rw [(constraint.expression.occurrences_eq_zero_iff id).mpr unnamed]
            rfl

theorem tallies_removeConstraint (accounted : solver.Accounted kinds)
    (tallied : solver.Tallied capped apart placed deals fun _ => 0) (stands : apart key.id) :
    (removeConstraint key).Meets solver (fun _ after => after.Tallied capped apart
      (fun id => placed id ∧ id ≠ key.id) deals fun _ => 0) refused InOrder := by
  apply Meets.read_bind
  apply tallies_removeWithin accounted tallied stands
  intro empty
  rw [Option.eq_none_iff_forall_ne_some]
  intro constraint found
  have size := Catalog.size_erase_of_found found
  rw [constraintCount] at empty
  omega

section Writing

variable {handle source : ConstraintHandle}
  (tallied : solver.Tallied capped apart placed deals fun _ => 0)

include tallied

theorem tallies_replaceConstraint {written : Constraint α} (stands : apart handle.id)
    (found : solver.constraints.get? handle.key = some constraint)
    (spread : written.expression.Over solver.Knows) :
    (replaceConstraint handle written).Meets solver (fun _ after =>
      after.Tallied capped apart placed deals fun id =>
        constraint.expression.occurrences id - written.expression.occurrences id)
      refused paused :=
  Meets.update ((tallied.rewrite stands found spread).congr_owed fun id => by rw [zero_add])

/-- Nothing is owed if the same variables are mentioned. -/
theorem tallies_replaceConstraint_same {written : Constraint α} (stands : apart handle.id)
    (found : solver.constraints.get? handle.key = some constraint)
    (spread : written.expression.Over solver.Knows)
    (same : ∀ id, written.expression.occurrences id = constraint.expression.occurrences id) :
    (replaceConstraint handle written).Meets solver (fun _ after =>
      after.Tallied capped apart placed deals fun _ => 0) refused paused := by
  apply (tallies_replaceConstraint tallied stands found spread).weaken
  exact fun _ after replaced => replaced.congr_owed fun id => by rw [same, sub_self]

variable (own : handle.owner = solver.identity → apart handle.id)

include own

theorem tallies_addTerm (inside : VariableHandle) (coefficient : α) :
    (addTerm handle inside coefficient).Meets solver (fun _ after =>
      after.Tallied capped apart placed deals fun _ => 0) (fun _ after => after = solver)
      paused := by
  refine Meets.read_bind (Meets.demand_bind ?_ fun _ _ => rfl)
  intro state is_state
  refine Meets.read_bind (Meets.demand_bind ?_ fun _ _ => rfl)
  intro constraint is_constraint
  obtain ⟨owned, found, _⟩ := of_findInactive is_constraint
  have known : solver.Knows inside.symbol := ⟨state, (of_findVariable is_state).2⟩
  have spread := (tallied.over_known found).plus (fun _ => known)
    (coefficient * constraint.sideSign)
  apply Meets.bind (tallies_replaceConstraint tallied (own owned) found spread)
  intro _ between replaced
  apply (tallies_trackTerm replaced rfl).weaken
  intro _ after tracked
  apply tracked.congr_owed
  intro id
  by_cases same : id = inside.symbol.id
  · rw [same, Function.update_self]
  · rw [Function.update_of_ne same, constraint.occurrences_addTerm_of_ne same, sub_self]

theorem tallies_addConstant (constant : α) :
    (addConstant handle constant).Meets solver (fun _ after =>
      after.Tallied capped apart placed deals fun _ => 0) (fun _ after => after = solver)
      paused := by
  refine Meets.read_bind (Meets.demand_bind ?_ fun _ _ => rfl)
  intro constraint is_constraint
  obtain ⟨owned, found, _⟩ := of_findInactive is_constraint
  have known := tallied.over_known found
  exact tallies_replaceConstraint_same tallied (own owned) found known fun _ => rfl

theorem tallies_setRelation (relation : Relation) :
    (setRelation handle relation).Meets solver (fun _ after =>
      after.Tallied capped apart placed deals fun _ => 0) (fun _ after => after = solver)
      paused := by
  refine Meets.read_bind (Meets.demand_bind ?_ fun _ _ => rfl)
  intro constraint is_constraint
  obtain ⟨owned, found, _⟩ := of_findInactive is_constraint
  have known := tallied.over_known found
  split
  · exact Meets.refuse rfl
  · apply tallies_replaceConstraint_same tallied (own owned) found
    · cases relation with
      | atLeast => exact known
      | atMost => exact known.scale (-1)
      | equal => exact known.scale (-1)
    · exact constraint.occurrences_relate relation

/-- Merging a constraint, possibly into itself. -/
theorem tallies_mergeFound {added : Constraint α} {factor : α}
    (is_added : solver.findConstraint source = .ok added)
    (is_constraint : solver.findInactive handle = .ok constraint) :
    (mergeConstraint handle source factor).Meets solver (fun _ after =>
      after.Tallied capped apart placed deals fun _ => 0) refused InOrder := by
  refine Meets.read_bind (Meets.granted_bind is_added ?_)
  refine Meets.read_bind (Meets.granted_bind is_constraint ?_)
  obtain ⟨owned, found, _⟩ := of_findInactive is_constraint
  have spread := (tallied.over_known found).plusMultiple
    (tallied.over_known (of_findConstraint is_added).2) (factor * constraint.sideSign)
  apply Meets.bind (tallies_replaceConstraint tallied (own owned) found spread)
  intro _ between replaced
  have distinct := added.expression.coefficients.distinct
  apply tallies_forM distinct _ (fun _ _ => rfl) _ replaced
  · intro term _ before left same tallied
    exact tallies_trackTerm tallied same
  · intro id unnamed
    rw [constraint.occurrences_addForm_of_unmentioned unnamed, sub_self]

theorem tallies_mergeConstraint (source : ConstraintHandle) (factor : α) :
    (mergeConstraint handle source factor).Meets solver (fun _ after =>
      after.Tallied capped apart placed deals fun _ => 0) (fun _ after => after = solver)
      InOrder := by
  cases is_added : solver.findConstraint source with
  | error reason => exact Meets.read_bind (Meets.denied_bind is_added rfl)
  | ok added =>
      cases is_constraint : solver.findInactive handle with
      | error reason =>
          refine Meets.read_bind (Meets.granted_bind is_added ?_)
          exact Meets.read_bind (Meets.denied_bind is_constraint rfl)
      | ok constraint => exact tallies_mergeFound tallied own is_added is_constraint

/-- Letting a constraint take part rewrites nothing, whether it is refused or not. -/
theorem tallies_addConstraint (unit : Scalar.negligible (0 + -1 : α) = false)
    (accountable : solver.Accountable) :
    (addConstraint handle).Meets solver (fun _ after =>
      after.Tallied capped apart placed deals fun _ => 0)
      (fun _ after => after.Tallied capped apart placed deals fun _ => 0) InOrder := by
  cases is_constraint : solver.findConstraint handle with
  | error reason => exact Meets.read_bind (Meets.denied_bind is_constraint tallied)
  | ok _ =>
      have stands := own (of_findConstraint is_constraint).1
      exact (meets_addConstraint unit accountable handle).mono
        (fun _ _ both => tallied.recast both.2 stands)
        (fun _ _ both => tallied.recast both.2 stands) fun _ => id

theorem tallies_setStrength (unit : Scalar.negligible (0 + -1 : α) = false)
    (accountable : solver.Accountable) (strength : Strength α) :
    (setStrength handle strength).Meets solver (fun _ after =>
      after.Tallied capped apart placed deals fun _ => 0)
      (fun _ after => after.Tallied capped apart placed deals fun _ => 0) InOrder := by
  cases is_constraint : solver.findConstraint handle with
  | error reason => exact Meets.read_bind (Meets.denied_bind is_constraint tallied)
  | ok _ =>
      have stands := own (of_findConstraint is_constraint).1
      refine Meets.read_bind (Meets.granted_bind is_constraint ?_)
      exact (meets_changeStrength unit accountable handle.key strength.orRequired).mono
        (fun _ _ both => tallied.recast both.2 stands)
        (fun _ _ both => tallied.recast both.2 stands) fun _ => id

theorem tallies_withdrawConstraint (accounted : solver.Accounted kinds) :
    (withdrawConstraint handle).Meets solver (fun _ after =>
      after.Tallied capped apart placed deals fun _ => 0) refused InOrder := by
  apply Meets.read_bind
  cases is_constraint : solver.findConstraint handle with
  | error _ => exact Meets.pure tallied
  | ok _ =>
      have stands := own (of_findConstraint is_constraint).1
      apply (meets_deactivate accounted).weaken
      exact fun _ after detached => tallied.recast detached.recast stands

theorem tallies_discardConstraint (accounted : solver.Accounted kinds) :
    (discardConstraint handle).Meets solver (fun _ after =>
      after.Tallied capped apart placed deals fun _ => 0) refused InOrder := by
  apply Meets.read_bind
  cases is_constraint : solver.findConstraint handle with
  | error _ => exact Meets.pure tallied
  | ok _ =>
      have stands := own (of_findConstraint is_constraint).1
      apply (tallies_removeConstraint accounted tallied stands).weaken
      exact fun _ after removed => removed.mono (fun _ => id) fun _ _ _ => And.left

/-- Only a constraint that has been taken out is wiped out. -/
theorem tallies_eraseConstraint (accounted : solver.Accounted kinds) :
    (eraseConstraint handle).Meets solver (fun _ after =>
      after.Tallied capped apart placed deals fun _ => 0) refused InOrder := by
  apply Meets.read_bind
  cases is_constraint : solver.findConstraint handle with
  | error _ => exact Meets.pure tallied
  | ok _ =>
      obtain ⟨owned, _⟩ := of_findConstraint is_constraint
      have stands := own owned
      apply Meets.bind (meets_deactivate accounted)
      intro _ between detached
      have deactivated := tallied.recast detached.recast stands
      apply Meets.read_bind
      cases found : between.constraints.get? handle.key with
      | none => exact Meets.pure deactivated
      | some constraint =>
          have blank : constraint.erased.expression.terms = [] :=
            SlotTable.entries_clear constraint.expression.coefficients
          have unwritten : ∀ id, constraint.erased.expression.occurrences id = 0 := by
            intro id
            rw [LinearForm.occurrences_eq_zero_iff, blank]
            exact fun _ member => absurd member List.not_mem_nil
          have spread : constraint.erased.expression.Over between.Knows := by
            intro term member
            rw [blank] at member
            exact absurd member List.not_mem_nil
          apply Meets.bind (tallies_replaceConstraint deactivated stands found spread)
          intro _ erased replaced
          have distinct := constraint.expression.coefficients.distinct
          apply tallies_forM distinct _ (fun _ _ => rfl) _ replaced
          · intro term member before left same tallied
            apply tallies_releaseVariable tallied
            rw [same, constraint.expression.occurrences_of_mem member, unwritten]
            rfl
          · intro id unnamed
            rw [(constraint.expression.occurrences_eq_zero_iff id).mpr unnamed, unwritten]
            rfl

end Writing

end Action

end SoftSimplex
