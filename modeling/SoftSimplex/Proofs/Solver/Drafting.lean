import SoftSimplex.Proofs.Dependable
import SoftSimplex.Proofs.Solver.OrderedActivation
import SoftSimplex.Proofs.Solver.Writing

/-!
# Hidden constraints

An edit drafts a hidden constraint, which pulls a variable toward a value, and lets it take part.
The draft is determined by the variable, the strength and the value. Its strength is capped below
the required ones, and with dependable arithmetic a constraint that is not required is never
refused: of its two fresh markers one has a negative coefficient, so it can be made basic at once.
-/

namespace SoftSimplex

variable {α : Type} [Scalar α] {kinds : Nat → Symbol.Kind} {inside : Nat → Prop}
  {solver after : Solver α} {key : Symbol} {constraint : Constraint α} {form : LinearForm α}
  {markers : Markers} {strength : Strength α}

namespace Scalar.Dependable

variable (dependable : Scalar.Dependable α)

include dependable

/-- A capped strength is below the required ones, comparable or not. -/
theorem capped_not_required (strength : Strength α) :
    strength.cappedAtStrong.isRequired = false := by
  rw [Strength.isRequired, decide_eq_false_iff_not]
  unfold Strength.cappedAtStrong
  split
  · exact dependable.not_required_le_strong
  · rename_i below
    exact fun required => below (dependable.strong_le_of_required_le _ required)

/-- A capped strength is not taken for an unstated one. -/
theorem capped_orRequired (strength : Strength α) :
    strength.orRequired.cappedAtStrong.orRequired = strength.orRequired.cappedAtStrong := by
  unfold Strength.cappedAtStrong
  split
  · simp [Strength.orRequired, dependable.strong_counts]
  · rename_i below
    unfold Strength.orRequired at below ⊢
    split at below
    · exact absurd dependable.strong_le_required below
    · rename_i counts
      simp [counts]

theorem capped_le_strong (reflexive : strength.weight ≤ strength.weight) :
    strength.orRequired.cappedAtStrong.weight ≤ (Strength.strong : Strength α).weight := by
  unfold Strength.cappedAtStrong
  split
  · exact dependable.strong_le_strong
  · rename_i below
    unfold Strength.orRequired at below ⊢
    split at below
    · exact absurd dependable.strong_le_required below
    · rename_i counts
      rw [if_neg counts]
      exact (dependable.comparable _ reflexive).resolve_right below

end Scalar.Dependable

/-- A restricted marker with a negative coefficient can be made basic. -/
theorem LinearForm.subject?_ne_none {candidates : List Symbol} {symbol : Symbol} {coefficient : α}
    (member : symbol ∈ candidates) (restricted : symbol.isRestricted = true)
    (found : form.coefficient? symbol = some coefficient) (falls : coefficient < 0) :
    form.subject? candidates ≠ none := by
  unfold subject?
  split
  · exact Option.some_ne_none _
  · rw [ne_eq, List.find?_eq_none]
    intro none_falls
    exact none_falls symbol member (by simp [restricted, found, falls])

theorem Markers.Fit.isRestricted {relation : Option Relation}
    (fit : markers.Fit kinds relation false) :
    markers.marker.isRestricted = true ∧ markers.other.isRestricted = true := by
  obtain ⟨proper, is_error⟩ := fit.other_proper rfl
  have kind : markers.marker.kind = .slack ∨ markers.marker.kind = .error := by
    rw [fit.marker_kind]
    rcases relation with _ | _ | _ | _ <;> simp [markerKind]
  exact ⟨(Symbol.isRestricted_eq_true_iff _).mpr ⟨fit.marker_proper.1, kind⟩,
    (Symbol.isRestricted_eq_true_iff _).mpr ⟨proper.1, Or.inr is_error⟩⟩

section FreshMarkers

variable (dependable : Scalar.Dependable α) {tableau : Tableau α} {relation : Option Relation}
  {isRequired : Bool} (arranged : tableau.Arranged kinds inside)
  (spanned : form.Over fun symbol => symbol.Proper kinds ∧ inside symbol.id)

include arranged spanned

theorem Tableau.Arranged.coefficient_express_of_fresh {symbol : Symbol}
    (fresh : ¬ inside symbol.id) : (tableau.express form).coefficient symbol = 0 := by
  have absent : (tableau.express form).coefficient? symbol = none := by
    rw [LinearForm.coefficient?_eq_none_iff]
    exact fun term member same =>
      fresh (same ▸ (arranged.over_express spanned term member).2)
  rw [LinearForm.coefficient, absent, Option.getD_none]

include dependable

/-- A fresh marker comes in with the unit or its opposite. -/
theorem Tableau.Arranged.coefficient?_extend_marker
    (fit : markers.Fit kinds relation isRequired) (fresh : ¬ inside markers.marker.id) :
    (markers.extend (tableau.express form)).coefficient? markers.marker =
      some (0 + if markers.marker.isDummy then 1 else -1) := by
  have none_yet := arranged.coefficient_express_of_fresh spanned fresh
  have counts : Scalar.negligible (0 + if markers.marker.isDummy then 1 else -1 : α) = false := by
    split
    · exact dependable.raised_counts
    · exact dependable.lowered_counts
  rw [Markers.extend, LinearForm.coefficient?_plus_of_ne _ fit.apart.symm,
    LinearForm.coefficient?_plus_self _ fit.marker_proper.isNull_eq_false, none_yet]
  rwa [none_yet]

theorem Tableau.Arranged.exists_coefficient_marker
    (fit : markers.Fit kinds relation isRequired) (fresh : ¬ inside markers.marker.id) :
    ∃ coefficient, (tableau.rowFor form markers).coefficient? markers.marker =
      some coefficient := by
  have extended := arranged.coefficient?_extend_marker dependable spanned fit fresh
  unfold Tableau.rowFor
  dsimp only
  split
  · rw [LinearForm.coefficient?_scale, extended]
    exact ⟨_, rfl⟩
  · exact ⟨_, extended⟩

end FreshMarkers

/-- The row of a constraint that is not required has a symbol that can be made basic at once. -/
theorem Tableau.Arranged.subject?_ne_none (dependable : Scalar.Dependable α) {tableau : Tableau α}
    {relation : Option Relation} (arranged : tableau.Arranged kinds inside)
    (spanned : form.Over fun symbol => symbol.Proper kinds ∧ inside symbol.id)
    (fit : markers.Fit kinds relation false) (fresh : ¬ inside markers.marker.id)
    (fresh' : ¬ inside markers.other.id) :
    (tableau.rowFor form markers).subject? [markers.marker, markers.other] ≠ none := by
  obtain ⟨restricted, restricted'⟩ := fit.isRestricted
  have not_dummy : markers.marker.isDummy = false := by
    obtain ⟨_, kind⟩ := (Symbol.isRestricted_eq_true_iff _).mp restricted
    rcases kind with kind | kind <;> simp [Symbol.isDummy, Symbol.isOf, kind]
  have marker : (markers.extend (tableau.express form)).coefficient? markers.marker =
      some (0 + -1) := by
    have extended := arranged.coefficient?_extend_marker dependable spanned fit fresh
    rwa [not_dummy] at extended
  have other : (markers.extend (tableau.express form)).coefficient? markers.other =
      some (0 + 1) := by
    have none_yet : ((tableau.express form).plus markers.marker
        (if markers.marker.isDummy then 1 else -1)).coefficient markers.other = 0 := by
      rw [LinearForm.coefficient, LinearForm.coefficient?_plus_of_ne _ fit.apart]
      exact arranged.coefficient_express_of_fresh spanned fresh'
    rw [Markers.extend,
      LinearForm.coefficient?_plus_self _ (fit.other_proper rfl).1.isNull_eq_false, none_yet]
    rw [none_yet]
    exact dependable.raised_counts
  unfold rowFor
  dsimp only
  split
  · have among := List.mem_cons_of_mem markers.marker (List.mem_singleton_self markers.other)
    apply LinearForm.subject?_ne_none among restricted'
    · rw [LinearForm.coefficient?_scale, other, Option.map_some]
    · exact dependable.raised_turned_neg
  · exact LinearForm.subject?_ne_none List.mem_cons_self restricted marker dependable.lowered_neg

/-- A registered constraint that is not required has a row with a symbol that can be made basic at
once: no symbol is reissued that occurs in the tableau. -/
theorem Solver.Accountable.subject?_ne_none (dependable : Scalar.Dependable α)
    (accountable : solver.Accountable) (found : solver.constraints.get? key = some constraint)
    (soft : constraint.strength.isRequired = false) :
    (solver.tableau.rowFor constraint.expression (solver.marking constraint).markers).subject?
      [(solver.marking constraint).markers.marker, (solver.marking constraint).markers.other] ≠
        none := by
  obtain ⟨kinds, accounted⟩ := accountable
  obtain ⟨_, ordered, filed⟩ := accounted.rekind_drawn constraint
  have fit := soft ▸ Solver.fit_marking kinds solver constraint
  apply ordered.toArranged.subject?_ne_none dependable
    (filed.placed key constraint found).expression fit
  · exact Nat.not_le_of_lt (Markers.id_draw fit.marker_proper.1 (Or.inl rfl)).1
  · exact Nat.not_le_of_lt (Markers.id_draw (fit.other_proper rfl).1.1 (Or.inr rfl)).1

/-- A constraint that is refused is a required one. -/
theorem Solver.Declined.isRequired (dependable : Scalar.Dependable α) {reason : Refusal}
    (declined : Solver.Declined key reason solver after) (accountable : solver.Accountable)
    (found : solver.constraints.get? key = some constraint) :
    constraint.strength.isRequired = true := by
  by_contra soft
  rw [Bool.not_eq_true] at soft
  exact accountable.subject?_ne_none dependable found soft (declined.stuck constraint found)

/-! ## Drafts -/

/-- The constraint that pulls a variable toward a value. -/
def Constraint.pull (strength : Strength α) (symbol : Symbol) (value : α) : Constraint α :=
  (((Constraint.blank strength).relate .equal).addTerm symbol 1).addConstant (-value)

namespace Constraint

@[simp]
theorem pull_strength (strength : Strength α) (symbol : Symbol) (value : α) :
    (pull strength symbol value).strength = strength := rfl

/-- A variable that is written into an empty equation is its only term. -/
theorem terms_addTerm_blank (dependable : Scalar.Dependable α) (strength : Strength α)
    {symbol : Symbol} (present : symbol.isNull = false) :
    (((blank strength).relate .equal).addTerm symbol 1).expression.terms = [(symbol, 1)] := by
  have alone : ((blank strength).relate .equal).expression.coefficient? symbol = none := rfl
  have sum : (0 + 1 * ((blank strength).relate .equal).sideSign : α) = 1 := dependable.single
  simp only [addTerm, LinearForm.plus, LinearForm.coefficient, alone, present, Option.getD_none,
    sum, dependable.single_counts, Bool.false_eq_true, if_false, LinearForm.terms]
  exact List.perm_singleton.mp (SlotTable.entries_insert_of_absent _ symbol 1 rfl)

/-- The expression of a pull is the variable and a constant. -/
theorem pull_terms (dependable : Scalar.Dependable α) (strength : Strength α) {symbol : Symbol}
    (present : symbol.isNull = false) (value : α) :
    (pull strength symbol value).expression.terms = [(symbol, 1)] :=
  terms_addTerm_blank dependable strength present

end Constraint

namespace Action

open Solver

variable {handle : VariableHandle} {state : Variable α} {refused : Refusal → Solver α → Prop}
  {paused : Solver α → Prop}

/-- Draft the constraint that pulls a variable toward a value. -/
def draft (handle : VariableHandle) (strength : Strength α) (value : α) :
    Action α ConstraintHandle := do
  let hidden ← createConstraint strength
  setRelation hidden .equal
  addTerm hidden handle 1
  addConstant hidden (-value)
  return hidden

theorem draft_bind {ρ : Type} (handle : VariableHandle) (strength : Strength α) (value : α)
    (following : ConstraintHandle → Action α ρ) :
    (draft handle strength value >>= following) = (do
      let hidden ← createConstraint strength
      setRelation hidden .equal
      addTerm hidden handle 1
      addConstant hidden (-value)
      following hidden) := by
  simp only [draft, bind_assoc, pure_bind]

/-- An edit drafts a hidden constraint and adds it. -/
theorem beginEdit_eq (handle : VariableHandle) (strength : Strength α) :
    beginEdit handle strength = (do
      let found ← demand ((← read).findVariable handle)
      match found.edit with
      | some key => changeStrength key strength.orRequired.cappedAtStrong
      | none =>
          let hidden ← draft handle strength.orRequired.cappedAtStrong found.value
          match ← attempt (addConstraint hidden) with
          | .error reason =>
              removeConstraint hidden.key
              refuse reason
          | .ok () =>
              update fun solver =>
                { solver with unknowns := solver.unknowns.modify handle.symbol fun state =>
                    { state with edit := some hidden.key, target := found.value } }) := by
  unfold beginEdit
  apply bind_congr
  intro solver
  apply bind_congr
  intro found
  cases found.edit with
  | some key => rfl
  | none => exact (draft_bind handle _ _ _).symm

end Action

namespace Solver

/-- A constraint is being drafted: it is the last one created, and nothing else has changed but the
variables. -/
structure Drafted (unknowns : Catalog (Variable α)) (constraint : Constraint α)
    (solver after : Solver α) : Prop where
  rest : after = { solver with
    lastConstraint := solver.lastConstraint + 1
    unknowns
    constraints := after.constraints }
  constraints : ∀ sought : Symbol, after.constraints.get? sought =
    if sought.id = solver.lastConstraint + 1 then some constraint
    else solver.constraints.get? sought

namespace Drafted

variable {α : Type} {solver after : Solver α} {unknowns : Catalog (Variable α)}
  {constraint : Constraint α} (drafted : Drafted unknowns constraint solver after)

include drafted

theorem found : after.constraints.get? ⟨solver.lastConstraint + 1, .external⟩ =
    some constraint := by
  rw [drafted.constraints, if_pos rfl]

theorem findConstraint :
    after.findConstraint ⟨solver.lastConstraint + 1, solver.identity⟩ = .ok constraint := by
  have owned : after.identity = solver.identity := by rw [drafted.rest]
  have found : after.constraints.get?
      (ConstraintHandle.key ⟨solver.lastConstraint + 1, solver.identity⟩) = some constraint :=
    drafted.found
  unfold Solver.findConstraint
  simp only [owned, if_true, found]

theorem findInactive (inactive : constraint.isActive = false) :
    after.findInactive ⟨solver.lastConstraint + 1, solver.identity⟩ = .ok constraint := by
  unfold Solver.findInactive
  simp only [drafted.findConstraint, inactive, Bool.false_eq_true, if_false]

theorem replace (other : Constraint α) :
    Drafted unknowns other solver { after with
      constraints := after.constraints.modify ⟨solver.lastConstraint + 1, .external⟩
        fun _ => other } := by
  constructor
  · rw [drafted.rest]
  · intro sought
    dsimp only
    rw [Catalog.get?_modify]
    split
    · rename_i same
      rw [after.constraints.get?_congr same, drafted.found]
      rfl
    · rename_i apart
      rw [drafted.constraints, if_neg apart]

theorem with_unknowns (unknowns' : Catalog (Variable α)) :
    Drafted unknowns' constraint solver { after with unknowns := unknowns' } :=
  ⟨by rw [drafted.rest], drafted.constraints⟩

theorem unknowns_eq : after.unknowns = unknowns := by rw [drafted.rest]

theorem identity : after.identity = solver.identity := by rw [drafted.rest]

theorem lastConstraint : after.lastConstraint = solver.lastConstraint + 1 := by
  rw [drafted.rest]

theorem symbols : after.symbols = solver.symbols := by rw [drafted.rest]

end Drafted

end Solver

namespace Action

open Solver

theorem drafts_createConstraint (strength : Strength α) :
    (createConstraint strength).Meets solver (fun handle after =>
      handle = ⟨solver.lastConstraint + 1, solver.identity⟩ ∧
        Drafted solver.unknowns (.blank strength.orRequired) solver after) refused paused := by
  refine Meets.read_bind (Meets.update_bind (Meets.pure ⟨rfl, rfl, fun sought => ?_⟩))
  exact Catalog.get?_insert _ _ _ _

/-- All four steps of a draft succeed. The variable gains a reference if the draft mentions it. -/
theorem drafts_pull (found : solver.findVariable handle = .ok state) (strength : Strength α)
    (value : α) :
    (draft handle strength value).Meets solver (fun hidden after =>
      hidden = ⟨solver.lastConstraint + 1, solver.identity⟩ ∧
        Drafted (if (Constraint.pull strength.orRequired handle.symbol value).expression.mentions
            handle.symbol then solver.unknowns.modify handle.symbol Variable.retained
          else solver.unknowns)
          (.pull strength.orRequired handle.symbol value) solver after)
      refused paused := by
  apply Meets.bind (drafts_createConstraint strength)
  rintro _ blank ⟨rfl, drafted⟩
  have related : (setRelation ⟨solver.lastConstraint + 1, solver.identity⟩ .equal).Meets blank
      (fun _ after => Drafted solver.unknowns
        ((Constraint.blank strength.orRequired).relate .equal) solver after) refused paused := by
    refine Meets.read_bind (Meets.granted_bind (drafted.findInactive rfl) ?_)
    change (replaceConstraint _ ((Constraint.blank strength.orRequired).relate .equal)).Meets
      blank _ refused paused
    exact Meets.update (drafted.replace _)
  apply Meets.bind related
  intro _ equated drafted
  have termed : (addTerm ⟨solver.lastConstraint + 1, solver.identity⟩ handle 1).Meets equated
      (fun _ after => Drafted (if (Constraint.pull strength.orRequired handle.symbol
            value).expression.mentions handle.symbol then
          solver.unknowns.modify handle.symbol Variable.retained else solver.unknowns)
        (((Constraint.blank strength.orRequired).relate .equal).addTerm handle.symbol 1) solver
          after) refused paused := by
    have there : equated.findVariable handle = .ok state := by
      unfold Solver.findVariable at found ⊢
      rw [drafted.rest]
      exact found
    refine Meets.read_bind (Meets.granted_bind there ?_)
    refine Meets.read_bind (Meets.granted_bind (drafted.findInactive rfl) ?_)
    have absent : ((Constraint.blank strength.orRequired).relate .equal).expression.mentions
        handle.symbol = false := rfl
    have same : (Constraint.pull strength.orRequired handle.symbol value).expression.mentions
        handle.symbol = (((Constraint.blank strength.orRequired).relate .equal).addTerm
          handle.symbol 1).expression.mentions handle.symbol := rfl
    apply Meets.update_bind
    unfold trackTerm
    rw [absent, same]
    have written := drafted.replace
      (((Constraint.blank strength.orRequired).relate .equal).addTerm handle.symbol 1)
    cases (((Constraint.blank strength.orRequired).relate .equal).addTerm
      handle.symbol 1).expression.mentions handle.symbol with
    | false => exact Meets.pure written
    | true =>
        apply Meets.update
        rw [if_pos rfl, ← drafted.unknowns_eq]
        exact written.with_unknowns _
  apply Meets.bind termed
  intro _ summed drafted
  have shifted : (addConstant ⟨solver.lastConstraint + 1, solver.identity⟩ (-value)).Meets summed
      (fun _ after => Drafted (if (Constraint.pull strength.orRequired handle.symbol
            value).expression.mentions handle.symbol then
          solver.unknowns.modify handle.symbol Variable.retained else solver.unknowns)
        (.pull strength.orRequired handle.symbol value) solver after) refused paused := by
    refine Meets.read_bind (Meets.granted_bind (drafted.findInactive rfl) ?_)
    exact Meets.update (drafted.replace (.pull strength.orRequired handle.symbol value))
  apply Meets.bind shifted
  exact fun _ _ drafted => Meets.pure ⟨rfl, drafted⟩

/-- With dependable arithmetic a draft mentions its variable. -/
theorem meets_draft (dependable : Scalar.Dependable α)
    (found : solver.findVariable handle = .ok state) (present : handle.symbol.isNull = false)
    (strength : Strength α) (value : α) :
    (draft handle strength value).Meets solver (fun hidden after =>
      hidden = ⟨solver.lastConstraint + 1, solver.identity⟩ ∧
        Drafted (solver.unknowns.modify handle.symbol Variable.retained)
          (.pull strength.orRequired handle.symbol value) solver after)
      refused paused := by
  have mentioned : (Constraint.pull strength.orRequired handle.symbol value).expression.mentions
      handle.symbol = true := by
    rw [← Bool.not_eq_false, LinearForm.mentions_eq_false_iff,
      Constraint.pull_terms dependable _ present]
    simp
  apply (drafts_pull found strength value).weaken
  rintro hidden after ⟨is_hidden, drafted⟩
  rw [if_pos mentioned] at drafted
  exact ⟨is_hidden, drafted⟩

end Action

end SoftSimplex
