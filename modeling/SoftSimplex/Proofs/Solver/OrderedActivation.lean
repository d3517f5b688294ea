import SoftSimplex.Proofs.Solver.Activation
import SoftSimplex.Proofs.Solver.OrderedWork

/-!
# Taking part in order

Activation draws markers above every symbol in use, and a rejected constraint gives them back. All
that is above the mark is out of the tableau by then: after a trial it has been taken out, and
without one there was nothing but the price of missed amounts, which a row of dummies has none of.
For that the unit must not be negligible, or else a row could be one of dummies because its marker
has been dropped.
-/

namespace SoftSimplex

variable {α : Type} [Scalar α] {kinds : Nat → Symbol.Kind} {mark : Nat} {inside : Nat → Prop}
  {solver before after : Solver α} {key : Symbol} {constraint : Constraint α}
  {form : LinearForm α} {markers : Markers} {refused : Refusal → Solver α → Prop}

omit [Scalar α] in
/-- A marker that is a dummy is the only one. -/
theorem Markers.Fit.errors_eq_nil {relation : Option Relation} {isRequired : Bool}
    (fit : markers.Fit kinds relation isRequired) (dummy : markers.marker.isDummy = true) :
    markers.errors = [] := by
  have kind : markerKind relation isRequired = .dummy := by
    rw [← fit.marker_kind]
    exact ((Symbol.isOf_eq_true_iff .dummy _).mp dummy).2
  have required : isRequired = true := by
    unfold markerKind at kind
    split at kind
    · rfl
    · exact Symbol.Kind.noConfusion kind
    · exact Symbol.Kind.noConfusion kind
  have not_error : markers.marker.isError = false := by
    rw [Symbol.isDummy, Symbol.isOf_eq_true_iff] at dummy
    simp [Symbol.isError, Symbol.isOf, dummy.2]
  rw [errors, fit.other_absent required, List.filter_cons_of_neg (by simp [not_error])]
  rfl

namespace LinearForm

/-- A symbol that does not occur comes in with an amount that is not negligible. -/
theorem exists_term_plus {symbol : Symbol} {amount : α} (proper : symbol.isNull = false)
    (fresh : form.coefficient? symbol = none)
    (kept : Scalar.negligible (0 + amount) = false) :
    ∃ term ∈ (form.plus symbol amount).terms, term.1.id = symbol.id := by
  unfold plus coefficient
  simp only [proper, Bool.false_eq_true, if_false, fresh, Option.getD_none, kept]
  obtain ⟨term, member, same, _⟩ := ((form.coefficients.insert symbol
    (0 + amount)).get?_eq_some_iff symbol (0 + amount)).mp (by
      rw [SlotTable.get?_insert, if_pos rfl])
  exact ⟨term, member, same⟩

/-- Adding another symbol leaves a symbol in place. -/
theorem exists_term_plus_of_ne {symbol other : Symbol} (apart : other.id ≠ symbol.id) (amount : α)
    (occurs : ∃ term ∈ form.terms, term.1.id = symbol.id) :
    ∃ term ∈ (form.plus other amount).terms, term.1.id = symbol.id := by
  obtain ⟨term, member, same⟩ := occurs
  have elsewhere : term.1.id ≠ other.id := fun named => apart (named.symm.trans same)
  have inserted : ∃ entry ∈ (form.coefficients.insert other
      (form.coefficient other + amount)).entries, entry.1.id = symbol.id := by
    obtain ⟨entry, filed, named, _⟩ := ((form.coefficients.insert other
      (form.coefficient other + amount)).get?_eq_some_iff term.1 term.2).mp (by
        rw [SlotTable.get?_insert, if_neg elsewhere]
        exact (form.coefficients.get?_eq_some_iff term.1 term.2).mpr ⟨term, member, rfl, rfl⟩)
    exact ⟨entry, filed, named.trans same⟩
  obtain ⟨entry, filed, named⟩ := inserted
  unfold plus
  split
  · exact ⟨term, member, same⟩
  · dsimp only [terms]
    split
    · exact ⟨entry, (SlotTable.mem_entries_erase_iff _ _ _).mpr
        ⟨filed, named ▸ apart.symm⟩, named⟩
    · exact ⟨entry, filed, named⟩

end LinearForm

namespace Tableau

variable {tableau : Tableau α} {relation : Option Relation} {isRequired : Bool}

/-- The row of a constraint with a fresh marker mentions it, provided that the unit counts. A row of
dummies therefore belongs to a constraint without missed amounts. -/
theorem Arranged.errors_eq_nil (unit : Scalar.negligible (0 + -1 : α) = false)
    (arranged : tableau.Arranged kinds inside)
    (spanned : form.Over fun symbol => symbol.Proper kinds ∧ inside symbol.id)
    (fit : markers.Fit kinds relation isRequired) (fresh : ¬ inside markers.marker.id)
    (written : (tableau.rowFor form markers).Over (Symbol.Proper kinds))
    (dummies : (tableau.rowFor form markers).hasOnlyDummies = true) : markers.errors = [] := by
  by_contra priced
  have not_dummy : markers.marker.isDummy = false := by
    rw [← Bool.not_eq_true]
    exact fun dummy => priced (fit.errors_eq_nil dummy)
  have unmentioned : (tableau.express form).coefficient? markers.marker = none := by
    rw [LinearForm.coefficient?_eq_none_iff]
    exact fun term member same => fresh (same ▸ (arranged.over_express spanned term member).2)
  -- The coefficient of a fresh marker is minus one, which is not dropped as negligible.
  have extended : ∃ term ∈ (markers.extend (tableau.express form)).terms,
      term.1.id = markers.marker.id := by
    unfold Markers.extend
    rw [not_dummy]
    apply LinearForm.exists_term_plus_of_ne fit.apart
    exact LinearForm.exists_term_plus fit.marker_proper.isNull_eq_false unmentioned unit
  obtain ⟨term, member, same⟩ : ∃ term ∈ (tableau.rowFor form markers).terms,
      term.1.id = markers.marker.id := by
    obtain ⟨term, member, same⟩ := extended
    unfold rowFor
    dsimp only
    split
    · exact ⟨_, (LinearForm.mem_terms_scale_iff _ _ _).mpr ⟨term, member, rfl⟩, same⟩
    · exact ⟨term, member, same⟩
  rw [LinearForm.hasOnlyDummies, List.all_eq_true] at dummies
  have is_dummy := dummies term member
  rw [(written term member).eq_of_id_eq fit.marker_proper same, not_dummy] at is_dummy
  exact Bool.noConfusion is_dummy

end Tableau

namespace Solver

/-! ## Prepared solvers -/

/-- The variables of the constraint wait for a refresh, and nothing else concerns the caches. -/
theorem follows_prepared (solver : Solver α) (key : Symbol) (constraint : Constraint α) :
    Follows solver (solver.prepared key constraint) := by
  have marks := Follows.foldl_markStale solver (constraint.expression.terms.map Prod.fst)
  rw [List.foldl_map] at marks
  exact marks.trans (SameCaches.follows (.of_eq rfl rfl fun _ => rfl) rfl)

theorem remarked_prepared (solver : Solver α) (key : Symbol) (constraint : Constraint α) :
    Remarked key solver (solver.prepared key constraint) := by
  have marked := solver.marked_terms constraint
  constructor
  · constructor
    · rw [prepared, marked.rest]
    · rw [prepared, marked.rest]
    · exact marked.outline
  · rw [prepared_constraints, Catalog.get?_modify, if_pos rfl, Option.map_map]
    rfl
  · intro sought apart
    rw [prepared_constraints, Catalog.get?_modify, if_neg apart]

theorem follows_stripped (solver : Solver α) (key : Symbol) (constraint : Constraint α) :
    Follows solver (solver.stripped key constraint) := by
  have same : SameCaches solver (solver.stripped key constraint) := by
    refine .of_eq rfl rfl fun symbol => ?_
    rw [stripped_tableau]
    rfl
  exact same.follows rfl

theorem remarked_stripped (solver : Solver α) (key : Symbol) (constraint : Constraint α) :
    Remarked key solver (solver.stripped key constraint) := by
  constructor
  · exact ⟨rfl, rfl, fun _ => rfl⟩
  · rw [get?_stripped, if_pos rfl, Option.map_map]
    rfl
  · intro sought apart
    rw [get?_stripped, if_neg apart]

/-- The solver knows its caches as well as before, and otherwise only the markers of one constraint
and the supply of symbols have changed. -/
structure Retains (key : Symbol) (solver after : Solver α) : Prop
    extends Tracks solver after, Remarked key solver after

theorem Retains.trans {between : Solver α} (retains : Retains key solver between)
    (retains' : Retains key between after) : Retains key solver after :=
  ⟨retains.toTracks.trans retains'.toTracks, retains.toRemarked.trans retains'.toRemarked⟩

theorem retains_prepared (solver : Solver α) (key : Symbol) (constraint : Constraint α) :
    Retains key solver (solver.prepared key constraint) :=
  ⟨(follows_prepared solver key constraint).toTracks, remarked_prepared solver key constraint⟩

theorem retains_stripped (solver : Solver α) (key : Symbol) (constraint : Constraint α) :
    Retains key solver (solver.stripped key constraint) :=
  ⟨(follows_stripped solver key constraint).toTracks, remarked_stripped solver key constraint⟩

theorem Reworked.retains (reworked : Reworked kinds mark inside solver after) (key : Symbol) :
    Retains key solver after :=
  ⟨reworked.toTracks, reworked.remarked key⟩

omit [Scalar α] in
theorem Remarked.with_symbols (remarked : Remarked key solver after) (symbols : SymbolSupply) :
    Remarked key solver { after with symbols } :=
  ⟨⟨remarked.identity, remarked.lastConstraint, remarked.outline⟩, remarked.written,
    remarked.elsewhere⟩

/-- Kinds can be found for all symbols, and with these everything is accounted for. -/
def Accountable (solver : Solver α) : Prop :=
  ∃ kinds, solver.Accounted kinds

namespace Accounted

variable (accounted : solver.Accounted kinds)

include accounted

theorem rekind_drawn (constraint : Constraint α) :
    solver.Tended (drawn kinds solver constraint) solver.symbols.last ∧
      solver.tableau.Ordered (drawn kinds solver constraint) (· ≤ solver.symbols.last) ∧
        solver.constraints.Filed (drawn kinds solver constraint) solver.symbols.last := by
  have agree : ∀ id, id ≤ solver.symbols.last → drawn kinds solver constraint id = kinds id :=
    fun _ => Markers.drawnKinds_of_le
  exact ⟨accounted.toTended.rekind agree (Nat.le_refl _),
    accounted.ordered.rekind agree accounted.rested accounted.untouched,
    accounted.filed.rekind agree (Nat.le_refl _)⟩

/-- The markers that are drawn have no rows. -/
theorem free_marking (constraint : Constraint α) {symbol : Symbol}
    (member : symbol = (solver.marking constraint).markers.marker ∨
      symbol = (solver.marking constraint).markers.other) (present : symbol.id ≠ 0) :
    solver.tableau.FreeWithin (drawn kinds solver constraint)
      (· ≤ (solver.prepared key constraint).symbols.last) symbol := by
  obtain ⟨above, low⟩ := Markers.id_draw present member
  apply (accounted.rekind_drawn constraint).2.1.toArranged.freeWithin_of_fresh
  · exact (fit_marking kinds solver constraint).proper member present
  · exact Nat.not_le_of_lt above
  · exact low

variable (found : solver.constraints.get? key = some constraint)

include found

theorem filed_prepared : (solver.prepared key constraint).constraints.Filed
    (drawn kinds solver constraint) (solver.prepared key constraint).symbols.last := by
  have filed := (accounted.rekind_drawn constraint).2.2
  have later := solver.last_le_prepared key constraint
  have marked : (solver.marking constraint).Placed (drawn kinds solver constraint)
      (solver.prepared key constraint).symbols.last := by
    constructor
    · exact (filed.placed key constraint found).expression.mono fun _ both =>
        ⟨both.1, both.2.trans later⟩
    · exact Or.inr (fit_marking kinds solver constraint)
    · exact fun id owned => (owns_marking key owned).2
  have above : ∀ sought state, solver.constraints.get? sought = some state →
      ∀ id, (solver.marking constraint).Owns id → ¬ state.Owns id := by
    intro sought state there id owned owned'
    have low := (filed.placed sought state there).owned id owned'
    exact absurd low (Nat.not_le_of_lt (owns_marking key owned).1)
  constructor
  · intro sought state there
    rcases of_get?_prepared found there with ⟨_, rfl⟩ | before
    · exact marked
    · exact (filed.placed sought state before).rekind (fun _ _ => rfl) later
  · intro sought sought' state state' there there' distinct id owned owned'
    rcases of_get?_prepared found there with ⟨same, rfl⟩ | before
    · rcases of_get?_prepared found there' with ⟨same', rfl⟩ | before'
      · exact distinct (same.trans same'.symm)
      · exact above sought' state' before' id owned owned'
    · rcases of_get?_prepared found there' with ⟨same', rfl⟩ | before'
      · exact above sought state before id owned' owned
      · exact filed.apart sought sought' state state' before before' distinct id owned owned'

theorem workable_prepared : (solver.prepared key constraint).Workable
    (drawn kinds solver constraint) solver.symbols.last
      (· ≤ (solver.prepared key constraint).symbols.last) := by
  obtain ⟨tended, ordered, filed⟩ := accounted.rekind_drawn constraint
  have expression := (filed.placed key constraint found).expression
  have proper : ∀ symbol ∈ constraint.expression.terms.map Prod.fst,
      symbol.Proper (drawn kinds solver constraint) :=
    List.forall_mem_map.mpr fun term member => (expression term member).1
  have marked := tended.foldl_markStale proper
  rw [List.foldl_map] at marked
  constructor
  · exact ⟨marked.registered, marked.waiting⟩
  · rw [prepared_tableau]
    apply (ordered.mono fun _ low => low.trans (solver.last_le_prepared key constraint)).chargeFresh
    intro symbol member
    obtain ⟨inside, is_error⟩ := (Markers.mem_errors_iff _ symbol).mp member
    exact accounted.free_marking constraint inside ((symbol.isOf_eq_true_iff .error).mp is_error).1
  · rw [prepared_tableau]
    exact accounted.untouched

/-- The row of a prepared constraint is written in free symbols. -/
theorem over_row : (solver.tableau.rowFor constraint.expression
    (solver.marking constraint).markers).Over ((solver.prepared key constraint).tableau.FreeWithin
      (drawn kinds solver constraint) (· ≤ (solver.prepared key constraint).symbols.last)) := by
  obtain ⟨_, ordered, filed⟩ := accounted.rekind_drawn constraint
  have later := solver.last_le_prepared key constraint
  have wider := ordered.toArranged.mono fun _ low => Nat.le_trans low later
  rw [prepared_tableau]
  apply wider.over_rowFor
  · exact (filed.placed key constraint found).expression.mono fun _ both =>
      ⟨both.1, both.2.trans later⟩
  · intro present
    exact accounted.free_marking constraint (Or.inl rfl)
      ((Symbol.isNull_eq_false_iff _).mp present)
  · intro present
    exact accounted.free_marking constraint (Or.inr rfl)
      ((Symbol.isNull_eq_false_iff _).mp present)

omit found in
/-- So are the markers that are drawn for it. -/
theorem free_prepared {symbol : Symbol}
    (member : symbol = (solver.marking constraint).markers.marker ∨
      symbol = (solver.marking constraint).markers.other) (present : symbol.isNull = false) :
    (solver.prepared key constraint).tableau.FreeWithin (drawn kinds solver constraint)
      (· ≤ (solver.prepared key constraint).symbols.last) symbol := by
  rw [prepared_tableau]
  exact accounted.free_marking constraint member (symbol.isNull_eq_false_iff.mp present)

/-- A rejected constraint whose symbols are out of the tableau leaves everything accounted for. -/
theorem restored (absent : constraint.markers = Markers.absent)
    (same : before.constraints = (solver.prepared key constraint).constraints)
    (repaired : Repaired (drawn kinds solver constraint) solver.symbols.last
      (· ≤ solver.symbols.last) (before.stripped key (solver.marking constraint)) after) :
    ({ after with symbols := solver.symbols } : Solver α).Accounted
      (drawn kinds solver constraint) := by
  have filed := (accounted.rekind_drawn constraint).2.2
  have origin : ∀ sought state, after.constraints.get? sought = some state →
      solver.constraints.get? sought = some state := by
    intro sought state there
    rw [repaired.constraints, get?_stripped_prepared found absent same] at there
    exact there
  constructor
  · exact ⟨⟨repaired.registered, repaired.waiting⟩, repaired.ordered, repaired.untouched⟩
  · apply filed.of_origin
    · exact fun sought state there => filed.placed sought state (origin sought state there)
    · exact fun sought state there => Or.inr ⟨state, origin sought state there, rfl⟩
  · exact repaired.rested

end Accounted

/-- Stripping takes a price out of the objective. -/
theorem Workable.stripped (workable : solver.Workable kinds mark inside)
    (belong : ∀ symbol ∈ constraint.markers.errors, symbol.Proper kinds ∧ inside symbol.id)
    (key : Symbol) : (solver.stripped key constraint).Workable kinds mark inside := by
  constructor
  · exact ⟨workable.registered, workable.waiting⟩
  · exact (workable.ordered.charge belong _).settleObjective
  · rw [stripped_tableau]
    exact workable.untouched

/-- After the price of a placed constraint its marker is taken out. -/
theorem Workable.withdrawn {above : Nat} (workable : solver.Workable kinds mark (· ≤ above))
    (placed : constraint.Placed kinds above) (key : Symbol) :
    Reworked kinds mark (· ≤ above) (solver.stripped key constraint)
      ((solver.stripped key constraint).adopt
        ((solver.stripped key constraint).tableau.dropMarker constraint.markers.marker)) := by
  have stripped := workable.stripped placed.proper_errors key
  have proper : constraint.markers.marker.id ≠ 0 → constraint.markers.marker.Proper kinds :=
    fun present => (placed.proper_markers (Or.inl rfl) present).1
  exact stripped.reworked_adopt (stripped.ordered.dropMarker _ proper)
    (stripped.ordered.reports_dropMarker proper)

/-- An activation that went through. -/
structure Joined (key : Symbol) (solver after : Solver α) : Prop
    extends Renews solver after, Remarked key solver after where
  accountable : after.Accountable
  active : ∀ constraint, after.constraints.get? key = some constraint →
    constraint.isActive = true
  later : solver.symbols.last ≤ after.symbols.last

/-- What a refused activation leaves behind. No symbol of the row could be made basic at once. -/
structure Declined (key : Symbol) (reason : Refusal) (solver after : Solver α) : Prop
    extends Recoils solver reason after, Remarked key solver after where
  accountable : after.Accountable
  symbols : after.symbols = solver.symbols
  stuck : ∀ constraint, solver.constraints.get? key = some constraint →
    (solver.tableau.rowFor constraint.expression (solver.marking constraint).markers).subject?
      [(solver.marking constraint).markers.marker, (solver.marking constraint).markers.other] = none

/-- A constraint has been taken out and owns no symbols. -/
structure Detached (kinds : Nat → Symbol.Kind) (key : Symbol) (solver after : Solver α) : Prop
    extends Thinned kinds solver after, Remarked key solver after where
  idle : after.constraints.Idle key

end Solver

namespace Action

open Solver

/-! ## Activation -/

section Activation

variable (accounted : solver.Accounted kinds)
  (found : solver.constraints.get? key = some constraint)
  (inactive : constraint.isActive = false)

include accounted found

/-- The row of a prepared constraint is given a place. -/
theorem meets_place_prepared :
    (place (solver.tableau.rowFor constraint.expression (solver.marking constraint).markers)
      (solver.marking constraint).markers).Meets (solver.prepared key constraint)
        (Seating (drawn kinds solver constraint) solver.symbols.last
          (solver.tableau.rowFor constraint.expression (solver.marking constraint).markers)
          (solver.marking constraint).markers (solver.prepared key constraint))
        refused InOrder := by
  apply meets_place (accounted.workable_prepared found) Markers.proper_draw
    (accounted.over_row found)
  · exact accounted.free_prepared (Or.inl rfl)
      (fit_marking kinds solver constraint).marker_proper.isNull_eq_false
  · exact accounted.free_prepared (Or.inr rfl)

include inactive

/-- A row of dummies has no price, so nothing above the mark has come into the tableau. -/
theorem meets_rollBack_unsatisfied (unit : Scalar.negligible (0 + -1 : α) = false)
    (stuck : (solver.tableau.rowFor constraint.expression
      (solver.marking constraint).markers).subject? [(solver.marking constraint).markers.marker,
        (solver.marking constraint).markers.other] = none)
    (dummies : (solver.tableau.rowFor constraint.expression
      (solver.marking constraint).markers).hasOnlyDummies = true) :
    (rollBack key .unsatisfied solver.symbols.last).Meets (solver.prepared key constraint)
      (fun _ after => Declined key .unsatisfied solver after) refused InOrder := by
  obtain ⟨tended, ordered, filed⟩ := accounted.rekind_drawn constraint
  have workable := accounted.workable_prepared found
  have absent := (accounted.filed.placed key constraint found).absent inactive
  have fit := fit_marking kinds solver constraint
  have unpriced : (solver.marking constraint).markers.errors = [] := by
    apply ordered.toArranged.errors_eq_nil unit
      (filed.placed key constraint found).expression fit _ _ dummies
    · exact Nat.not_le_of_lt (Markers.id_draw fit.marker_proper.1 (Or.inl rfl)).1
    · exact (accounted.over_row found).mono fun _ free => free.1.1
  have unchanged : (solver.prepared key constraint).tableau = solver.tableau := by
    rw [prepared_tableau, unpriced]
    rfl
  refine Meets.bind (meets_strip (get?_prepared found) (solver.marking_active constraint)) ?_
  rintro _ _ ⟨rfl, rfl⟩
  simp only [reduceCtorEq, if_false]
  apply Meets.update
  have low : (solver.prepared key constraint).Workable (drawn kinds solver constraint)
      solver.symbols.last (· ≤ solver.symbols.last) := by
    refine ⟨workable.toTended, ?_, workable.untouched⟩
    rw [unchanged]
    exact ordered
  have repaired : Repaired (drawn kinds solver constraint) solver.symbols.last
      (· ≤ solver.symbols.last)
      ((solver.prepared key constraint).stripped key (solver.marking constraint))
      ((solver.prepared key constraint).stripped key (solver.marking constraint)) := by
    constructor
    · apply Workable.reworked
      apply low.stripped
      rw [unpriced]
      exact fun _ member => absurd member List.not_mem_nil
    · rw [stripped_tableau, unchanged]
      exact accounted.rested
  have follows := (follows_prepared solver key constraint).trans (follows_stripped _ key
    (solver.marking constraint))
  have remarked := (remarked_prepared solver key constraint).trans (remarked_stripped _ key
    (solver.marking constraint))
  exact {
    toRecoils := (follows.with_symbols _).recoils _
    toRemarked := remarked.with_symbols _
    accountable := ⟨_, accounted.restored found absent rfl repaired⟩
    symbols := rfl
    stuck := fun state there => Option.some.inj (found.symm.trans there) ▸ stuck }

/-- What a failed trial has left above the mark is taken out of the tableau. -/
theorem meets_rollBack_unbound
    (stuck : (solver.tableau.rowFor constraint.expression
      (solver.marking constraint).markers).subject? [(solver.marking constraint).markers.marker,
        (solver.marking constraint).markers.other] = none)
    (reworked : Reworked (drawn kinds solver constraint) solver.symbols.last
      (· ≤ (solver.prepared key constraint).symbols.last) (solver.prepared key constraint)
        before) :
    (rollBack key .unbound solver.symbols.last).Meets before
      (fun _ after => Declined key .unbound solver after) refused InOrder := by
  have absent := (accounted.filed.placed key constraint found).absent inactive
  have placed := (accounted.filed_prepared found).placed key _ (get?_prepared found)
  have filed : before.constraints.get? key = some (solver.marking constraint) := by
    rw [reworked.constraints]
    exact get?_prepared found
  refine Meets.bind (meets_strip filed (solver.marking_active constraint)) ?_
  rintro _ between ⟨rfl, rfl⟩
  simp only [if_true]
  have dropped := reworked.toWorkable.withdrawn placed key
  have truncated := dropped.reworked_adopt (dropped.ordered.truncate solver.symbols.last)
    (dropped.ordered.reports_truncate solver.symbols.last)
  refine Meets.rework_bind (Meets.rework_bind ?_)
  apply Meets.bind (meets_optimize (truncated.mono fun _ => And.right))
  intro _ after optimized
  apply Meets.update
  have repaired := optimized.after_rework (dropped.trans truncated)
  have retains := ((retains_prepared solver key constraint).trans (reworked.retains key)).trans
    ((retains_stripped before key (solver.marking constraint)).trans (repaired.retains key))
  exact {
    toTracks := retains.toTracks.with_symbols _
    unmoved := fun moved => absurd rfl moved
    toRemarked := retains.toRemarked.with_symbols _
    accountable := ⟨_, accounted.restored found absent reworked.constraints repaired⟩
    symbols := rfl
    stuck := fun state there => Option.some.inj (found.symm.trans there) ▸ stuck }

end Activation

theorem meets_activate (unit : Scalar.negligible (0 + -1 : α) = false)
    (accounted : solver.Accounted kinds) (idle : solver.constraints.Idle key) :
    (activate key).Meets solver (fun _ after => Joined key solver after)
      (fun reason after => Declined key reason solver after) InOrder := by
  apply Meets.read_bind
  cases found : solver.constraints.get? key with
  | none =>
      refine Meets.refuse ⟨(Follows.refl solver).recoils _, ?_, ⟨kinds, accounted⟩, rfl, ?_⟩
      · exact (SameRecords.refl solver).remarked (fun _ => rfl) key
      · exact fun constraint there => absurd (found.symm.trans there).symm
          (Option.some_ne_none constraint)
  | some constraint =>
      have inactive := idle.isActive found
      apply Meets.bind (meets_prepare solver key constraint)
      rintro _ _ ⟨rfl, rfl⟩
      apply Meets.bind
      · exact meets_place_prepared accounted found
      · intro result between seating
        cases seating with
        | placed reworked =>
            apply (meets_settle reworked.toWorkable).weaken
            intro _ after settled
            have repaired := settled.after_rework reworked
            have prepared := retains_prepared solver key constraint
            have later := solver.last_le_prepared key constraint
            refine ⟨?_, ?_, ⟨_, repaired.accounted (accounted.filed_prepared found) later⟩, ?_, ?_⟩
            · exact (prepared.toTracks.trans reworked.toTracks).renews settled.toRenews
            · exact prepared.toRemarked.trans (repaired.remarked key)
            · intro state there
              rw [repaired.constraints, get?_prepared found] at there
              exact Option.some.inj there ▸ solver.marking_active constraint
            · rw [repaired.symbols]
              exact later
        | unsatisfied stuck dummies =>
            apply Meets.bind
              (meets_rollBack_unsatisfied accounted found inactive unit stuck dummies)
            exact fun _ after declined => Meets.refuse declined
        | unbound stuck reworked =>
            apply Meets.bind (meets_rollBack_unbound accounted found inactive stuck reworked)
            exact fun _ after declined => Meets.refuse declined

theorem meets_deactivate (accounted : solver.Accounted kinds) :
    (deactivate key).Meets solver (fun _ after => Detached kinds key solver after)
      refused InOrder := by
  by_cases idle : ∀ constraint, solver.constraints.get? key = some constraint →
      constraint.isActive = false
  · apply Meets.bind (meets_strip_idle idle)
    rintro _ after ⟨rfl, rfl⟩
    refine Meets.pure ⟨accounted.thinned, ?_, fun constraint found => ?_⟩
    · exact (SameRecords.refl after).remarked (fun _ => rfl) key
    · exact (accounted.filed.placed key constraint found).absent (idle constraint found)
  · push Not at idle
    obtain ⟨constraint, found, active⟩ := idle
    rw [ne_eq, Bool.not_eq_false] at active
    have placed := accounted.filed.placed key constraint found
    have thins : solver.constraints.Thins (solver.stripped key constraint).constraints :=
      .strip solver.constraints key
    apply Meets.bind (meets_strip found active)
    rintro _ between ⟨rfl, rfl⟩
    have dropped := accounted.toWorkable.withdrawn placed key
    apply Meets.rework_bind
    apply (meets_settle dropped.toWorkable).weaken
    intro _ after settled
    have repaired : Repaired kinds solver.symbols.last
        (· ≤ (solver.stripped key constraint).symbols.last)
        (solver.stripped key constraint) after :=
      settled.after_rework dropped
    have stripped := retains_stripped solver key constraint
    constructor
    · constructor
      · exact repaired.accounted (thins.filed accounted.filed) (Nat.le_refl _)
      · exact ((stripped.toTracks.trans dropped.toTracks).renews settled.toRenews).follows
      · rw [repaired.constraints]
        exact thins
      · exact repaired.symbols
    · exact stripped.toRemarked.trans (repaired.remarked key)
    · intro state there
      rw [repaired.constraints, get?_stripped, if_pos rfl] at there
      obtain ⟨_, _, rfl⟩ := Option.map_eq_some_iff.mp there
      rfl

end Action

end SoftSimplex
