import SoftSimplex.Proofs.Solver.OrderedActivation
import SoftSimplex.Proofs.Solver.Writing

/-!
# References and writing in order

Removing constraints only thins the catalog, however far the removal spreads. Variables are created
above all symbols in use, and only constraints without markers are written, so creating and writing
leave everything accounted for.
-/

namespace SoftSimplex

variable {α : Type} [Scalar α] {kinds : Nat → Symbol.Kind} {mark : Nat} {solver : Solver α}
  {key symbol : Symbol} {constraint : Constraint α} {refused : Refusal → Solver α → Prop}
  {handle : ConstraintHandle}

namespace Constraint.Placed

theorem blank (strength : Strength α) : (Constraint.blank strength).Placed kinds mark :=
  .of_absent (.ofConstant 0) rfl

variable (placed : constraint.Placed kinds mark) (absent : constraint.markers = Markers.absent)

include placed absent

theorem addTerm (proper : symbol.Proper kinds ∧ symbol.id ≤ mark) (coefficient : α) :
    (constraint.addTerm symbol coefficient).Placed kinds mark :=
  .of_absent (placed.expression.plus (fun _ => proper) _) absent

theorem addConstant (constant : α) : (constraint.addConstant constant).Placed kinds mark :=
  .of_absent placed.expression absent

theorem addForm {form : LinearForm α}
    (spanned : form.Over fun symbol => symbol.Proper kinds ∧ symbol.id ≤ mark) (factor : α) :
    (constraint.addForm form factor).Placed kinds mark :=
  .of_absent (placed.expression.plusMultiple spanned _) absent

theorem relate (relation : Relation) : (constraint.relate relation).Placed kinds mark := by
  refine .of_absent ?_ absent
  cases relation with
  | atLeast => exact placed.expression
  | atMost => exact placed.expression.scale (-1)
  | equal => exact placed.expression.scale (-1)

omit placed in
theorem erased : constraint.erased.Placed kinds mark := by
  refine .of_absent (fun term member => ?_) absent
  change term ∈ constraint.expression.coefficients.clear.entries at member
  rw [SlotTable.entries_clear] at member
  exact absurd member List.not_mem_nil

end Constraint.Placed

namespace Solver.Accounted

variable (accounted : solver.Accounted kinds)

include accounted

/-- A variable that a handle names is a proper symbol. -/
theorem proper_of_findVariable {inside : VariableHandle} {state : Variable α}
    (found : solver.findVariable inside = .ok state) :
    inside.symbol.Proper kinds ∧ inside.symbol.id ≤ solver.symbols.last := by
  obtain ⟨proper, external, low⟩ := accounted.registered _ state (of_findVariable found).2
  exact ⟨⟨proper, external.symm⟩, low⟩

/-- A constraint that can be written is placed and owns no symbols. -/
theorem placed_of_findInactive (found : solver.findInactive handle = .ok constraint) :
    constraint.Placed kinds solver.symbols.last ∧ constraint.markers = Markers.absent := by
  obtain ⟨_, there, inactive⟩ := of_findInactive found
  have placed := accounted.filed.placed _ constraint there
  exact ⟨placed, placed.absent inactive⟩

end Solver.Accounted

namespace Action

open Solver

theorem meets_dropReference (accounted : solver.Accounted kinds) (symbol : Symbol)
    {paused : Solver α → Prop} :
    (dropReference symbol).Meets solver (fun _ after => Thinned kinds solver after)
      refused paused := by
  apply Meets.read_bind
  cases solver.unknowns.get? symbol with
  | none => exact Meets.pure accounted.thinned
  | some state =>
      dsimp only
      split
      · exact Meets.update_bind (Meets.pure (accounted.modify_unknown symbol _ fun _ => ⟨rfl, rfl⟩))
      · exact Meets.update_bind (Meets.pure
          (accounted.with_unknowns (.erase_unknown solver symbol)))

/-- However far a removal spreads, constraints only go or lose their markers. -/
theorem meets_removeWithin (depth : Nat) (accounted : solver.Accounted kinds) (key : Symbol) :
    (removeWithin depth key).Meets solver (fun _ after => Thinned kinds solver after)
      refused InOrder := by
  induction depth generalizing solver key with
  | zero => exact Meets.pure accounted.thinned
  | succ depth inductionHypothesis =>
      apply Meets.bind (meets_deactivate accounted)
      intro _ between detached
      have deactivated := detached.toThinned
      apply Meets.read_bind
      unfold Catalog.take?
      cases between.constraints.get? key with
      | none => exact Meets.pure deactivated
      | some constraint =>
          apply Meets.update_bind
          apply Meets.forM (fun after => Thinned kinds solver after)
          · intro term _ before thinned
            apply Meets.bind (meets_dropReference thinned.toAccounted term.1)
            intro edit dropped further
            have through := thinned.trans further
            cases edit with
            | none => exact Meets.pure through
            | some edit =>
                apply (inductionHypothesis through.toAccounted edit).weaken
                exact fun _ after => through.trans
          · exact deactivated.trans (deactivated.thin (.erase _ key))

theorem meets_removeConstraint (accounted : solver.Accounted kinds) (key : Symbol) :
    (removeConstraint key).Meets solver (fun _ after => Thinned kinds solver after)
      refused InOrder :=
  Meets.read_bind (meets_removeWithin solver.constraintCount accounted key)

theorem meets_releaseVariable (accounted : solver.Accounted kinds) (symbol : Symbol) :
    (releaseVariable symbol).Meets solver (fun _ after => Thinned kinds solver after)
      refused InOrder := by
  apply Meets.bind (meets_dropReference accounted symbol)
  intro edit dropped thinned
  cases edit with
  | none => exact Meets.pure thinned
  | some edit =>
      apply (meets_removeConstraint thinned.toAccounted edit).weaken
      exact fun _ after => thinned.trans

theorem meets_trackTerm (accounted : solver.Accounted kinds) (symbol : Symbol)
    (before after : LinearForm α) :
    (trackTerm symbol before after).Meets solver (fun _ later => Thinned kinds solver later)
      refused InOrder := by
  unfold trackTerm
  split
  · exact Meets.update (accounted.modify_unknown symbol _ fun _ => ⟨rfl, rfl⟩)
  · exact meets_releaseVariable accounted symbol
  · exact Meets.pure accounted.thinned

/-- Walking over the terms of a form with rounds that only thin the catalog. -/
theorem meets_forM (accounted : solver.Accounted kinds) (terms : List (Symbol × α))
    {round : Symbol × α → Action α PUnit}
    (thins : ∀ term ∈ terms, ∀ before : Solver α, before.Accounted kinds →
      (round term).Meets before (fun _ after => Thinned kinds before after) refused InOrder) :
    (terms.forM round).Meets solver (fun _ after => Thinned kinds solver after)
      refused InOrder := by
  apply Meets.forM (fun after => Thinned kinds solver after)
  · intro term member before thinned
    apply (thins term member before thinned.toAccounted).weaken
    exact fun _ after => thinned.trans
  · exact accounted.thinned

/-- A constraint without markers has been replaced by another one, and variables may have gone. -/
structure Rewritten (kinds : Nat → Symbol.Kind) (key : Symbol) (solver after : Solver α) : Prop
    extends Accounted kinds after, Follows solver after where
  idle : after.constraints.Idle key
  symbols : after.symbols = solver.symbols

theorem Rewritten.thin {between after : Solver α} (rewritten : Rewritten kinds key solver between)
    (thinned : Thinned kinds between after) : Rewritten kinds key solver after :=
  ⟨thinned.toAccounted, rewritten.toFollows.trans thinned.toFollows,
    thinned.thins.idle rewritten.idle, thinned.symbols.trans rewritten.symbols⟩

theorem meets_replaceConstraint (accounted : solver.Accounted kinds)
    (placed : constraint.Placed kinds solver.symbols.last)
    (absent : constraint.markers = Markers.absent) {paused : Solver α → Prop} :
    (replaceConstraint handle constraint).Meets solver
      (fun _ after => Rewritten kinds handle.key solver after) refused paused := by
  apply Meets.update
  have same : SameCaches solver { solver with
      constraints := solver.constraints.modify handle.key fun _ => constraint } :=
    .of_eq rfl rfl fun _ => rfl
  refine ⟨accounted.with_constraints ?_, same.follows rfl, fun state found => ?_, rfl⟩
  · exact accounted.filed.modify fun _ _ => ⟨placed, Or.inl absent⟩
  · dsimp only at found
    rw [Catalog.get?_modify, if_pos rfl] at found
    obtain ⟨_, _, rfl⟩ := Option.map_eq_some_iff.mp found
    exact absent

theorem meets_createConstraint (accounted : solver.Accounted kinds) (strength : Strength α)
    {paused : Solver α → Prop} :
    (createConstraint strength).Meets solver
      (fun handle after => Rewritten kinds handle.key solver after) refused paused := by
  refine Meets.read_bind (Meets.update_bind (Meets.pure ?_))
  have same : SameCaches solver { solver with
      lastConstraint := solver.lastConstraint + 1
      constraints := solver.constraints.insert ⟨solver.lastConstraint + 1, .external⟩
        (Constraint.blank strength.orRequired) } := .of_eq rfl rfl fun _ => rfl
  refine ⟨⟨⟨⟨accounted.registered, accounted.waiting⟩, accounted.ordered, accounted.untouched⟩,
    ?_, accounted.rested⟩, same.follows rfl, fun state found => ?_, rfl⟩
  · exact accounted.filed.insert (.blank _) rfl _
  · dsimp only at found
    rw [Catalog.get?_insert, if_pos rfl] at found
    rw [← Option.some.inj found]
    rfl

/-- A new variable does not wait, and its cache agrees with a tableau that has no row for it. -/
theorem follows_insert_fresh (accounted : solver.Accounted kinds) {symbol : Symbol}
    (above : solver.symbols.last < symbol.id) (symbols : SymbolSupply) :
    Follows solver { solver with
      symbols, unknowns := solver.unknowns.insert symbol Variable.fresh } := by
  have never_waits : (solver.stale.map Symbol.id).count symbol.id = 0 := by
    rw [List.count_eq_zero]
    intro member
    obtain ⟨waiting, inside, same⟩ := List.mem_map.mp member
    exact absurd (same ▸ (accounted.waiting waiting inside).2) (Nat.not_le_of_lt above)
  have unsolved : ∀ sought : Symbol, sought.id = symbol.id → solver.tableau.value sought = 0 := by
    intro sought same
    unfold Tableau.value
    rw [(solver.tableau.form?_eq_none_iff sought).mpr]
    · rfl
    · intro row member named
      have low := (accounted.ordered.basic row member).2
      rw [named, same] at low
      exact absurd low (Nat.not_le_of_lt above)
  constructor
  · refine ⟨rfl, fun aware => ⟨fun sought state found => ?_, fun sought state found calm => ?_⟩⟩
    · rcases Catalog.of_get?_insert found with ⟨same, rfl⟩ | ⟨_, was⟩
      · rw [same]
        exact never_waits
      · exact aware.queued sought state was
    · rcases Catalog.of_get?_insert found with ⟨same, rfl⟩ | ⟨_, was⟩
      · exact (unsolved sought same).symm
      · exact aware.cached sought state was calm
  · intro _ _ current sought state found
    rcases Catalog.of_get?_insert found with ⟨same, rfl⟩ | ⟨_, was⟩
    · exact (unsolved sought same).symm
    · exact current sought state was

/-- A variable is created above all symbols in use. -/
theorem meets_createVariable (accounted : solver.Accounted kinds) {paused : Solver α → Prop} :
    (createVariable : Action α VariableHandle).Meets solver
      (fun _ after => after.Accountable ∧ Follows solver after) refused paused := by
  let kinds' : Nat → Symbol.Kind := fun id =>
    if id ≤ solver.symbols.last then kinds id else .external
  have agree : ∀ id, id ≤ solver.symbols.last → kinds' id = kinds id :=
    fun _ low => if_pos low
  have later := Nat.le_succ solver.symbols.last
  have tended := accounted.toTended.rekind agree later
  have ordered := accounted.ordered.rekind agree accounted.rested accounted.untouched
  have above : solver.symbols.last < (solver.symbols.draw .external).1.id := Nat.lt_succ_self _
  have follows := follows_insert_fresh accounted above (solver.symbols.draw .external).2
  refine Meets.read_bind (Meets.update_bind (Meets.pure ⟨⟨kinds', ?_⟩, follows⟩))
  constructor
  · constructor
    · constructor
      · intro symbol state found
        rcases Catalog.of_get?_insert found with ⟨same, _⟩ | ⟨_, was⟩
        · rw [same]
          exact ⟨Nat.succ_ne_zero _, if_neg (Nat.not_succ_le_self _), Nat.le_refl _⟩
        · exact tended.registered symbol state was
      · exact tended.waiting
    · exact ordered.mono fun _ low => low.trans later
    · exact accounted.untouched
  · exact accounted.filed.rekind agree later
  · exact accounted.rested

/-- Adding another expression leaves the constraint without markers. -/
theorem meets_mergeConstraint (accounted : solver.Accounted kinds)
    (source : ConstraintHandle) (factor : α) :
    (mergeConstraint handle source factor).Meets solver
      (fun _ after => Rewritten kinds handle.key solver after)
      (fun _ after => after = solver) InOrder := by
  refine Meets.read_bind (Meets.demand_bind ?_ fun _ _ => rfl)
  intro added is_added
  refine Meets.read_bind (Meets.demand_bind ?_ fun _ _ => rfl)
  intro constraint is_constraint
  obtain ⟨placed, absent⟩ := accounted.placed_of_findInactive is_constraint
  have spanned := (accounted.filed.placed _ added (of_findConstraint is_added).2).expression
  apply Meets.bind (meets_replaceConstraint accounted (placed.addForm absent spanned factor) absent)
  intro _ between rewritten
  apply (meets_forM rewritten.toAccounted added.expression.terms _).weaken
  · exact fun _ after => rewritten.thin
  · exact fun term _ before accounted => meets_trackTerm accounted term.1 _ _

end Action

end SoftSimplex
