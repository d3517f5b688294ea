import SoftSimplex.Proofs.Ledger
import SoftSimplex.Proofs.Solver.Awareness
import SoftSimplex.Proofs.Solver.Outcome

/-!
# Filed constraints and tended variables

What a solver keeps about symbols, whatever the arithmetic does. A constraint is placed if it owns
no symbols at all, or those that its relation and its strength ask for. Constraints are filed up to
a mark if each of them is placed, no two of them own one symbol, and no symbol is above the mark.
Constraints that only go or lose their markers stay filed.

Variables are tended up to a mark if all registered and all waiting ones are proper and not above
the mark. Taking over a tableau keeps them tended.
-/

namespace SoftSimplex

variable {α : Type} {kinds kinds' : Nat → Symbol.Kind} {mark mark' : Nat}

/-- The constraint as it would be if it took no part. -/
def Constraint.unmarked (constraint : Constraint α) : Constraint α :=
  { constraint with markers := Markers.absent }

theorem Markers.Fit.rekind {relation : Option Relation} {isRequired : Bool} {markers : Markers}
    (fit : markers.Fit kinds relation isRequired)
    (agree : ∀ id, id ≠ 0 → markers.marker.id = id ∨ markers.other.id = id → kinds' id = kinds id) :
    markers.Fit kinds' relation isRequired := by
  constructor
  · obtain ⟨proper, kind⟩ := fit.marker_proper
    exact ⟨proper, kind.trans (agree _ proper (Or.inl rfl)).symm⟩
  · exact fit.marker_kind
  · exact fit.other_absent
  · intro soft
    obtain ⟨⟨proper, kind⟩, is_error⟩ := fit.other_proper soft
    exact ⟨⟨proper, kind.trans (agree _ proper (Or.inr rfl)).symm⟩, is_error⟩
  · exact fit.apart

namespace Constraint

variable {constraint other : Constraint α}

theorem not_owns_of_absent (absent : constraint.markers = Markers.absent) (id : Nat) :
    ¬ constraint.Owns id := by
  rintro ⟨proper, same⟩
  rw [absent] at same
  exact proper (same.elim Eq.symm Eq.symm)

theorem Owns.congr {id : Nat} (owned : constraint.Owns id)
    (same : other.markers = constraint.markers) : other.Owns id := by
  unfold Owns
  rw [same]
  exact owned

variable [Scalar α]

/-- The expression is over proper symbols up to a mark. The constraint owns no symbols, or those
that its relation and its strength ask for, up to the mark. -/
structure Placed (kinds : Nat → Symbol.Kind) (mark : Nat) (constraint : Constraint α) : Prop where
  expression : constraint.expression.Over fun symbol => symbol.Proper kinds ∧ symbol.id ≤ mark
  markers : constraint.markers = Markers.absent ∨
    constraint.markers.Fit kinds constraint.relation constraint.strength.isRequired
  owned : ∀ id, constraint.Owns id → id ≤ mark

theorem Placed.of_absent
    (spanned : constraint.expression.Over fun symbol => symbol.Proper kinds ∧ symbol.id ≤ mark)
    (absent : constraint.markers = Markers.absent) : constraint.Placed kinds mark :=
  ⟨spanned, Or.inl absent, fun id owned => absurd owned (not_owns_of_absent absent id)⟩

namespace Placed

variable (placed : constraint.Placed kinds mark)

include placed

theorem rekind (agree : ∀ id, id ≤ mark → kinds' id = kinds id) (higher : mark ≤ mark') :
    constraint.Placed kinds' mark' := by
  constructor
  · refine placed.expression.mono fun symbol both => ?_
    obtain ⟨⟨proper, kind⟩, low⟩ := both
    exact ⟨⟨proper, kind.trans (agree _ low).symm⟩, low.trans higher⟩
  · apply placed.markers.imp_right
    intro fit
    exact fit.rekind fun id proper named => agree id (placed.owned id ⟨proper, named⟩)
  · exact fun id owned => (placed.owned id owned).trans higher

/-- A constraint that takes no part owns no symbols. -/
theorem absent (inactive : constraint.isActive = false) :
    constraint.markers = Markers.absent := by
  apply placed.markers.resolve_right
  intro fit
  rw [isActive, fit.marker_proper.isNull_eq_false] at inactive
  exact Bool.noConfusion inactive

theorem fit (active : constraint.isActive = true) :
    constraint.markers.Fit kinds constraint.relation constraint.strength.isRequired := by
  apply placed.markers.resolve_left
  intro absent
  rw [isActive, absent] at active
  exact Bool.noConfusion active

/-- Both markers are proper and not above the mark, unless they are absent. -/
theorem proper_markers {symbol : Symbol}
    (member : symbol = constraint.markers.marker ∨ symbol = constraint.markers.other)
    (present : symbol.id ≠ 0) : symbol.Proper kinds ∧ symbol.id ≤ mark := by
  have owned := owns_of_present member present
  refine ⟨?_, placed.owned _ owned⟩
  rcases placed.markers with absent | fit
  · exact absurd owned (not_owns_of_absent absent _)
  · exact fit.proper member present

/-- No marker stands for an unknown. -/
theorem internal {symbol : Symbol}
    (member : symbol = constraint.markers.marker ∨ symbol = constraint.markers.other)
    (present : symbol.id ≠ 0) : kinds symbol.id ≠ .external := by
  rcases placed.markers with absent | fit
  · exact absurd (owns_of_present member present) (not_owns_of_absent absent _)
  · exact fit.internal member present

theorem proper_errors :
    ∀ symbol ∈ constraint.markers.errors, symbol.Proper kinds ∧ symbol.id ≤ mark := by
  intro symbol member
  obtain ⟨inside, is_error⟩ := (constraint.markers.mem_errors_iff symbol).mp member
  exact placed.proper_markers inside ((symbol.isOf_eq_true_iff .error).mp is_error).1

end Placed

end Constraint

namespace Catalog

variable {constraints other third : Catalog (Constraint α)} {key : Symbol}
  {constraint : Constraint α}

/-- Every constraint is placed, and no two of them own one symbol. -/
structure Filed [Scalar α] (kinds : Nat → Symbol.Kind) (mark : Nat)
    (constraints : Catalog (Constraint α)) : Prop where
  placed : ∀ key constraint, constraints.get? key = some constraint →
    constraint.Placed kinds mark
  apart : ∀ key key' constraint constraint', constraints.get? key = some constraint →
    constraints.get? key' = some constraint' → key.id ≠ key'.id →
      ∀ id, constraint.Owns id → ¬ constraint'.Owns id

namespace Filed

variable [Scalar α]

theorem new (kinds : Nat → Symbol.Kind) (mark pageSize : Nat) :
    (Catalog.new pageSize : Catalog (Constraint α)).Filed kinds mark := by
  constructor
  · intro key constraint found
    rw [get?_new] at found
    exact absurd found.symm (Option.some_ne_none constraint)
  · intro key key' constraint constraint' found
    rw [get?_new] at found
    exact absurd found.symm (Option.some_ne_none constraint)

/-- Constraints stay filed if all of them are placed and none of them gains markers. -/
theorem of_origin (filed : constraints.Filed kinds mark)
    (placed : ∀ key constraint, other.get? key = some constraint → constraint.Placed kinds' mark')
    (origin : ∀ key constraint, other.get? key = some constraint →
      constraint.markers = Markers.absent ∨
        ∃ before, constraints.get? key = some before ∧ before.markers = constraint.markers) :
    other.Filed kinds' mark' := by
  refine ⟨placed, fun key key' constraint constraint' found found' distinct id owned owned' => ?_⟩
  rcases origin key constraint found with absent | ⟨before, was, same⟩
  · exact Constraint.not_owns_of_absent absent id owned
  · rcases origin key' constraint' found' with absent | ⟨before', was', same'⟩
    · exact Constraint.not_owns_of_absent absent id owned'
    · exact filed.apart key key' before before' was was' distinct id (owned.congr same)
        (owned'.congr same')

theorem rekind (filed : constraints.Filed kinds mark)
    (agree : ∀ id, id ≤ mark → kinds' id = kinds id) (higher : mark ≤ mark') :
    constraints.Filed kinds' mark' :=
  filed.of_origin
    (fun key constraint found => (filed.placed key constraint found).rekind agree higher)
    fun _ constraint found => Or.inr ⟨constraint, found, rfl⟩

/-- A constraint may be changed as long as it gains no markers. -/
theorem modify (filed : constraints.Filed kinds mark) {change : Constraint α → Constraint α}
    (changed : ∀ constraint, constraints.get? key = some constraint →
      (change constraint).Placed kinds mark ∧ ((change constraint).markers = Markers.absent ∨
        constraint.markers = (change constraint).markers)) :
    (constraints.modify key change).Filed kinds mark := by
  have result : ∀ sought constraint,
      (constraints.modify key change).get? sought = some constraint →
        constraint.Placed kinds mark ∧ (constraint.markers = Markers.absent ∨
          ∃ before, constraints.get? sought = some before ∧
            before.markers = constraint.markers) := by
    intro sought constraint found
    rcases of_get?_modify found with ⟨same, before, was, rfl⟩ | ⟨_, was⟩
    · rw [constraints.get?_congr same] at was ⊢
      exact (changed before was).imp_right (Or.imp_right fun same => ⟨before, was, same⟩)
    · exact ⟨filed.placed sought constraint was, Or.inr ⟨constraint, was, rfl⟩⟩
  exact filed.of_origin (fun sought constraint found => (result sought constraint found).1)
    fun sought constraint found => (result sought constraint found).2

/-- A constraint without markers may be filed. -/
theorem insert (filed : constraints.Filed kinds mark) (placed : constraint.Placed kinds mark)
    (absent : constraint.markers = Markers.absent) (key : Symbol) :
    (constraints.insert key constraint).Filed kinds mark := by
  apply filed.of_origin
  · intro sought state found
    rcases of_get?_insert found with ⟨_, rfl⟩ | ⟨_, before⟩
    · exact placed
    · exact filed.placed sought state before
  · intro sought state found
    rcases of_get?_insert found with ⟨_, rfl⟩ | ⟨_, before⟩
    · exact Or.inl absent
    · exact Or.inr ⟨state, before, rfl⟩

end Filed

/-- A constraint under the key owns no symbols. -/
def Idle (constraints : Catalog (Constraint α)) (key : Symbol) : Prop :=
  ∀ constraint, constraints.get? key = some constraint → constraint.markers = Markers.absent

theorem Idle.isActive (idle : constraints.Idle key)
    (found : constraints.get? key = some constraint) : constraint.isActive = false := by
  rw [Constraint.isActive, idle constraint found]
  rfl

/-- Every constraint was there before, the same or with markers that it has lost since. -/
def Thins (constraints other : Catalog (Constraint α)) : Prop :=
  ∀ key constraint, other.get? key = some constraint → ∃ before,
    constraints.get? key = some before ∧
      (constraint = before ∨ constraint = { before with markers := Markers.absent })

namespace Thins

theorem refl (constraints : Catalog (Constraint α)) : constraints.Thins constraints :=
  fun _ constraint found => ⟨constraint, found, Or.inl rfl⟩

theorem trans (thins : constraints.Thins other) (thins' : other.Thins third) :
    constraints.Thins third := by
  intro key constraint found
  obtain ⟨between, there, later⟩ := thins' key constraint found
  obtain ⟨before, was, earlier⟩ := thins key between there
  refine ⟨before, was, ?_⟩
  rcases later with rfl | rfl
  · exact earlier
  · rcases earlier with rfl | rfl
    · exact Or.inr rfl
    · exact Or.inr rfl

theorem erase (constraints : Catalog (Constraint α)) (key : Symbol) :
    constraints.Thins (constraints.erase key) :=
  fun _ constraint found => ⟨constraint, (of_get?_erase found).2, Or.inl rfl⟩

/-- Taking the markers from a constraint. -/
theorem strip (constraints : Catalog (Constraint α)) (key : Symbol) :
    constraints.Thins (constraints.modify key fun state =>
      { state with markers := Markers.absent }) := by
  intro sought constraint found
  rcases of_get?_modify found with ⟨_, before, was, rfl⟩ | ⟨_, was⟩
  · exact ⟨before, was, Or.inr rfl⟩
  · exact ⟨constraint, was, Or.inl rfl⟩

/-- Taking the markers from every constraint. -/
theorem stripAll (constraints : Catalog (Constraint α)) :
    constraints.Thins (constraints.pass () fun _ state =>
      ({ state with markers := Markers.absent }, ())).1 := by
  intro sought constraint found
  rw [constraints.get?_pass () _ (fun state => { state with markers := Markers.absent })
    fun _ _ => rfl] at found
  obtain ⟨before, was, rfl⟩ := Option.map_eq_some_iff.mp found
  exact ⟨before, was, Or.inr rfl⟩

/-- A constraint without markers does not gain any. -/
theorem idle (thins : constraints.Thins other) (idle : constraints.Idle key) : other.Idle key := by
  intro constraint found
  obtain ⟨earlier, was, rfl | rfl⟩ := thins key constraint found
  · exact idle _ was
  · rfl

theorem filed [Scalar α] (thins : constraints.Thins other) (filed : constraints.Filed kinds mark) :
    other.Filed kinds mark := by
  apply filed.of_origin
  · intro key constraint found
    obtain ⟨before, was, rfl | rfl⟩ := thins key constraint found
    · exact filed.placed key _ was
    · exact .of_absent (filed.placed key before was).expression rfl
  · intro key constraint found
    obtain ⟨before, was, rfl | rfl⟩ := thins key constraint found
    · exact Or.inr ⟨_, was, rfl⟩
    · exact Or.inl rfl

end Thins

end Catalog

/-! ## Variables -/

namespace Solver

variable {solver after : Solver α} {inside : Nat → Prop} {tableau : Tableau α} {key : Symbol}

/-- Every registered variable is an external symbol up to a mark, and every waiting one is proper
and not above it. -/
structure Tended (kinds : Nat → Symbol.Kind) (mark : Nat) (solver : Solver α) : Prop where
  registered : ∀ symbol state, solver.unknowns.get? symbol = some state →
    symbol.id ≠ 0 ∧ kinds symbol.id = .external ∧ symbol.id ≤ mark
  waiting : ∀ symbol ∈ solver.stale, symbol.Proper kinds ∧ symbol.id ≤ mark

namespace Tended

variable (tended : solver.Tended kinds mark)

include tended

theorem rekind (agree : ∀ id, id ≤ mark → kinds' id = kinds id) (higher : mark ≤ mark') :
    solver.Tended kinds' mark' := by
  constructor
  · intro symbol state found
    obtain ⟨proper, external, low⟩ := tended.registered symbol state found
    exact ⟨proper, (agree _ low).trans external, low.trans higher⟩
  · intro symbol member
    obtain ⟨⟨proper, kind⟩, low⟩ := tended.waiting symbol member
    exact ⟨⟨proper, kind.trans (agree _ low).symm⟩, low.trans higher⟩

/-- Only the queue and who is registered count. -/
theorem of_unknowns
    (unknowns : ∀ symbol state, after.unknowns.get? symbol = some state →
      ∃ before, solver.unknowns.get? symbol = some before)
    (stale : after.stale = solver.stale) : after.Tended kinds mark := by
  constructor
  · intro symbol state found
    obtain ⟨before, was⟩ := unknowns symbol state found
    exact tended.registered symbol before was
  · rw [stale]
    exact tended.waiting

/-- Only a registered variable joins the queue. -/
theorem markStale {symbol : Symbol} (proper : symbol.Proper kinds) :
    (solver.markStale symbol).Tended kinds mark := by
  constructor
  · intro sought state found
    rw [get?_markStale] at found
    obtain ⟨before, was, _⟩ := Option.map_eq_some_iff.mp found
    exact tended.registered sought before was
  · unfold Solver.markStale
    cases found : solver.unknowns.get? symbol with
    | none => exact tended.waiting
    | some state =>
        dsimp only
        split
        · exact tended.waiting
        · exact List.forall_mem_cons.mpr
            ⟨⟨proper, (tended.registered symbol state found).2.2⟩, tended.waiting⟩

omit tended in
theorem foldl_markStale {symbols : List Symbol} (tended : solver.Tended kinds mark)
    (proper : ∀ symbol ∈ symbols, symbol.Proper kinds) :
    (symbols.foldl Solver.markStale solver).Tended kinds mark := by
  induction symbols generalizing solver with
  | nil => exact tended
  | cons first rest inductionHypothesis =>
      apply inductionHypothesis (tended.markStale (proper first List.mem_cons_self))
      exact fun symbol member => proper symbol (List.mem_cons_of_mem _ member)

theorem adopt (attended : tableau.Attended kinds) : (solver.adopt tableau).Tended kinds mark := by
  rw [adopt_eq]
  apply foldl_markStale
  · exact ⟨tended.registered, tended.waiting⟩
  · exact fun symbol member => attended.touched symbol (List.mem_reverse.mp member)

theorem refresh [Scalar α] : solver.refresh.Tended kinds mark := by
  constructor
  · intro symbol state found
    rw [get?_refresh] at found
    obtain ⟨before, was, _⟩ := Option.map_eq_some_iff.mp found
    exact tended.registered symbol before was
  · exact fun _ member => absurd member List.not_mem_nil

end Tended

/-! ## Solvers that can be worked on -/

/-- The tableau is in order for some kinds of symbols and some range. -/
def InOrder (solver : Solver α) : Prop :=
  ∃ kinds inside, solver.tableau.Ordered kinds inside

/-- The variables are tended, the tableau is in order, and every change of it has been heard of. -/
structure Workable (kinds : Nat → Symbol.Kind) (mark : Nat) (inside : Nat → Prop)
    (solver : Solver α) : Prop extends Tended kinds mark solver where
  ordered : solver.tableau.Ordered kinds inside
  untouched : solver.tableau.agenda.touched = []

theorem Workable.inOrder (workable : solver.Workable kinds mark inside) : solver.InOrder :=
  ⟨kinds, inside, workable.ordered⟩

theorem Workable.mono (workable : solver.Workable kinds mark inside) {wider : Nat → Prop}
    (within : ∀ id, inside id → wider id) : solver.Workable kinds mark wider :=
  ⟨workable.toTended, workable.ordered.mono within, workable.untouched⟩

/-- Taking over a tableau that is in order. -/
theorem Tended.workable_adopt (tended : solver.Tended kinds mark)
    (ordered : tableau.Ordered kinds inside) :
    (solver.adopt tableau).Workable kinds mark inside := by
  constructor
  · exact tended.adopt ordered.toAttended
  · rw [adopt_tableau]
    exact ordered.told
  · rw [adopt_tableau]
    rfl

@[simp]
theorem adopt_constraints (solver : Solver α) (tableau : Tableau α) :
    (solver.adopt tableau).constraints = solver.constraints := by
  rw [(solver.marked_adopt tableau).rest]

/-- What is known about variables apart from their caches is as before, and no constraint has been
created. -/
structure SameRecords (solver after : Solver α) : Prop where
  identity : after.identity = solver.identity
  lastConstraint : after.lastConstraint = solver.lastConstraint
  outline : ∀ symbol, (after.unknowns.get? symbol).map Variable.outline =
    (solver.unknowns.get? symbol).map Variable.outline

theorem SameRecords.refl (solver : Solver α) : SameRecords solver solver :=
  ⟨rfl, rfl, fun _ => rfl⟩

theorem SameRecords.trans {between : Solver α} (same : SameRecords solver between)
    (same' : SameRecords between after) : SameRecords solver after :=
  ⟨same'.identity.trans same.identity, same'.lastConstraint.trans same.lastConstraint,
    fun symbol => (same'.outline symbol).trans (same.outline symbol)⟩

theorem SameRecords.adopt (solver : Solver α) (tableau : Tableau α) :
    SameRecords solver (solver.adopt tableau) := by
  have marked := solver.marked_adopt tableau
  exact ⟨by rw [marked.rest], by rw [marked.rest], marked.outline⟩

theorem SameRecords.refresh [Scalar α] (solver : Solver α) :
    SameRecords solver solver.refresh := by
  refine ⟨rfl, rfl, fun symbol => ?_⟩
  rw [get?_refresh, Option.map_map]
  congr 1
  funext state
  simp only [Function.comp_apply]
  split <;> rfl

/-- What is more, at most one constraint has changed, and of that only the markers. -/
structure Remarked (key : Symbol) (solver after : Solver α) : Prop
    extends SameRecords solver after where
  written : (after.constraints.get? key).map Constraint.unmarked =
    (solver.constraints.get? key).map Constraint.unmarked
  elsewhere : ∀ sought : Symbol, sought.id ≠ key.id →
    after.constraints.get? sought = solver.constraints.get? sought

theorem SameRecords.remarked (same : SameRecords solver after)
    (constraints : ∀ sought, after.constraints.get? sought = solver.constraints.get? sought)
    (key : Symbol) : Remarked key solver after :=
  ⟨same, by rw [constraints], fun sought _ => constraints sought⟩

theorem Remarked.trans {between : Solver α} (remarked : Remarked key solver between)
    (remarked' : Remarked key between after) : Remarked key solver after where
  toSameRecords := remarked.toSameRecords.trans remarked'.toSameRecords
  written := remarked'.written.trans remarked.written
  elsewhere sought apart :=
    (remarked'.elsewhere sought apart).trans (remarked.elsewhere sought apart)

/-- At most one constraint has changed, of which the expression is as before, and no symbols have
been given back. -/
structure Recast (key : Symbol) (solver after : Solver α) : Prop
    extends SameRecords solver after where
  written : (after.constraints.get? key).map Constraint.expression =
    (solver.constraints.get? key).map Constraint.expression
  elsewhere : ∀ sought : Symbol, sought.id ≠ key.id →
    after.constraints.get? sought = solver.constraints.get? sought
  later : solver.symbols.last ≤ after.symbols.last

theorem Recast.refl (key : Symbol) (solver : Solver α) : Recast key solver solver :=
  ⟨.refl solver, rfl, fun _ _ => rfl, Nat.le_refl _⟩

theorem Recast.trans {between : Solver α} (recast : Recast key solver between)
    (recast' : Recast key between after) : Recast key solver after where
  toSameRecords := recast.toSameRecords.trans recast'.toSameRecords
  written := recast'.written.trans recast.written
  elsewhere sought apart := (recast'.elsewhere sought apart).trans (recast.elsewhere sought apart)
  later := recast.later.trans recast'.later

theorem Remarked.recast (remarked : Remarked key solver after)
    (later : solver.symbols.last ≤ after.symbols.last) : Recast key solver after := by
  refine ⟨remarked.toSameRecords, ?_, remarked.elsewhere, later⟩
  have expressions := congrArg (Option.map Constraint.expression) remarked.written
  rwa [Option.map_map, Option.map_map] at expressions

/-- Changing a constraint without rewriting it. -/
theorem Recast.modify (solver : Solver α) (key : Symbol) (change : Constraint α → Constraint α)
    (same : ∀ state, (change state).expression = state.expression) :
    Recast key solver { solver with constraints := solver.constraints.modify key change } := by
  refine ⟨⟨rfl, rfl, fun _ => rfl⟩, ?_, fun sought apart => ?_, Nat.le_refl _⟩
  · exact Catalog.map_get?_modify _ _ _ _ same
  · dsimp only
    rw [Catalog.get?_modify, if_neg apart]

section Reworked

variable [Scalar α]

/-- Work on the tableau that has changed neither the constraints nor the supply of symbols. -/
structure Reworked (kinds : Nat → Symbol.Kind) (mark : Nat) (inside : Nat → Prop)
    (solver after : Solver α) : Prop extends Workable kinds mark inside after,
      Tracks solver after, SameRecords solver after where
  constraints : after.constraints = solver.constraints
  symbols : after.symbols = solver.symbols

theorem Reworked.trans {between : Solver α} {inside' : Nat → Prop}
    (reworked : Reworked kinds mark inside solver between)
    (reworked' : Reworked kinds mark inside' between after) :
    Reworked kinds mark inside' solver after where
  toWorkable := reworked'.toWorkable
  toTracks := reworked.toTracks.trans reworked'.toTracks
  toSameRecords := reworked.toSameRecords.trans reworked'.toSameRecords
  constraints := reworked'.constraints.trans reworked.constraints
  symbols := reworked'.symbols.trans reworked.symbols

theorem Reworked.remarked (reworked : Reworked kinds mark inside solver after) (key : Symbol) :
    Remarked key solver after :=
  reworked.toSameRecords.remarked (fun _ => by rw [reworked.constraints]) key

theorem Reworked.recast (reworked : Reworked kinds mark inside solver after) (key : Symbol) :
    Recast key solver after :=
  (reworked.remarked key).recast (by rw [reworked.symbols])

theorem Workable.reworked (workable : solver.Workable kinds mark inside) :
    Reworked kinds mark inside solver solver :=
  ⟨workable, .refl solver, .refl solver, rfl, rfl⟩

theorem Tended.tracks_adopt (tended : solver.Tended kinds mark)
    (reports : solver.tableau.Reports kinds tableau) : Tracks solver (solver.adopt tableau) := by
  constructor
  · rw [(solver.marked_adopt tableau).rest]
  · intro aware
    apply aware.adopt _ reports
    intro symbol state found
    obtain ⟨proper, external, _⟩ := tended.registered symbol state found
    exact ⟨proper, external⟩

/-- Taking over a tableau that is in order and tells of its changes. -/
theorem Tended.reworked_adopt (tended : solver.Tended kinds mark)
    (ordered : tableau.Ordered kinds inside) (reports : solver.tableau.Reports kinds tableau) :
    Reworked kinds mark inside solver (solver.adopt tableau) where
  toWorkable := tended.workable_adopt ordered
  toTracks := tended.tracks_adopt reports
  toSameRecords := .adopt solver tableau
  constraints := solver.adopt_constraints tableau
  symbols := solver.adopt_symbols tableau

end Reworked

theorem Workable.refresh [Scalar α] (workable : solver.Workable kinds mark inside) :
    solver.refresh.Workable kinds mark inside :=
  ⟨workable.toTended.refresh, workable.ordered, workable.untouched⟩

/-- All symbols are proper and none is above the last one drawn, constraints own what they ask for,
and nothing waits for repair. -/
structure Accounted [Scalar α] (kinds : Nat → Symbol.Kind) (solver : Solver α) : Prop
    extends Workable kinds solver.symbols.last (· ≤ solver.symbols.last) solver where
  filed : solver.constraints.Filed kinds solver.symbols.last
  rested : solver.tableau.agenda.repairs = []

theorem Accounted.new [Scalar α] (identity : Nat) (options : Options) :
    (Solver.new identity options : Solver α).Accounted fun _ => .external := by
  constructor
  · constructor
    · constructor
      · intro symbol state found
        rw [Solver.new, Catalog.get?_new] at found
        exact absurd found.symm (Option.some_ne_none state)
      · exact fun _ member => absurd member List.not_mem_nil
    · exact Tableau.Ordered.empty _ _
    · rfl
  · exact Catalog.Filed.new _ _ _
  · rfl

theorem Accounted.refresh [Scalar α] (accounted : solver.Accounted kinds) :
    solver.refresh.Accounted kinds :=
  ⟨accounted.toWorkable.refresh, accounted.filed, accounted.rested⟩

theorem Accounted.with_constraints [Scalar α] (accounted : solver.Accounted kinds)
    {constraints : Catalog (Constraint α)} (filed : constraints.Filed kinds solver.symbols.last) :
    ({ solver with constraints } : Solver α).Accounted kinds :=
  ⟨⟨⟨accounted.registered, accounted.waiting⟩, accounted.ordered, accounted.untouched⟩, filed,
    accounted.rested⟩

/-- Everything is accounted for as before, constraints have only gone or lost their markers, and no
symbols have been drawn. -/
structure Thinned [Scalar α] (kinds : Nat → Symbol.Kind) (solver after : Solver α) : Prop
    extends Accounted kinds after, Follows solver after where
  thins : solver.constraints.Thins after.constraints
  symbols : after.symbols = solver.symbols

section Thinned

variable [Scalar α] {between : Solver α}

theorem Accounted.thinned (accounted : solver.Accounted kinds) : Thinned kinds solver solver :=
  ⟨accounted, .refl _, .refl _, rfl⟩

/-- Constraints may go or lose their markers. -/
theorem Accounted.thin (accounted : solver.Accounted kinds)
    {constraints : Catalog (Constraint α)} (thins : solver.constraints.Thins constraints) :
    Thinned kinds solver { solver with constraints } where
  toAccounted := accounted.with_constraints (thins.filed accounted.filed)
  toFollows := SameCaches.follows (.of_eq rfl rfl fun _ => rfl) rfl
  thins := thins
  symbols := rfl

/-- Variables may change or go, their caches and marks apart. -/
theorem Accounted.with_unknowns (accounted : solver.Accounted kinds)
    {unknowns : Catalog (Variable α)} (same : SameCaches solver { solver with unknowns }) :
    Thinned kinds solver { solver with unknowns } := by
  refine ⟨⟨⟨?_, accounted.ordered, accounted.untouched⟩, accounted.filed, accounted.rested⟩,
    same.follows rfl, .refl _, rfl⟩
  apply accounted.toTended.of_unknowns
  · intro symbol state found
    obtain ⟨before, was, _⟩ := same.unknowns symbol state found
    exact ⟨before, was⟩
  · rfl

theorem Accounted.modify_unknown (accounted : solver.Accounted kinds) (symbol : Symbol)
    (change : Variable α → Variable α) (spares : ∀ state, (change state).isStale = state.isStale ∧
      (change state).value = state.value) :
    Thinned kinds solver { solver with unknowns := solver.unknowns.modify symbol change } :=
  accounted.with_unknowns (.modify_unknown solver symbol change spares)

theorem Thinned.trans (thinned : Thinned kinds solver between)
    (thinned' : Thinned kinds between after) : Thinned kinds solver after where
  toAccounted := thinned'.toAccounted
  toFollows := thinned.toFollows.trans thinned'.toFollows
  thins := thinned.thins.trans thinned'.thins
  symbols := thinned'.symbols.trans thinned.symbols

end Thinned

end Solver

end SoftSimplex
