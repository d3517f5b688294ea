import SoftSimplex.Proofs.Solver.Keeping
import SoftSimplex.Proofs.Solver.Tolerance

/-!
# Coherent symbols

A solver is coherent if its symbols can be told apart by their numbers: nobody shares a symbol with
anybody else, everything in use has been drawn, and every number is in use for one kind only. Every
history of commands leads to a coherent solver, whatever the arithmetic does to its numbers. So a
number that is drawn again after a rejected constraint has given it back meets no older use.
-/

namespace SoftSimplex

variable {α : Type} [Scalar α] {kinds : Nat → Symbol.Kind} {solver : Solver α}

/-- The kind of a symbol, if it stands for one. -/
def Symbol.kind? (symbol : Symbol) : Option Symbol.Kind :=
  if symbol.isNull then none else some symbol.kind

theorem Symbol.Proper.kind?_eq {symbol : Symbol} (proper : symbol.Proper kinds) :
    symbol.kind? = some symbol.kind := by
  rw [kind?, if_neg (by simp [proper.isNull_eq_false])]

namespace Markers

/-- The symbols among the markers. -/
def symbols (markers : Markers) : List Symbol :=
  [markers.marker, markers.other].filter fun symbol => !symbol.isNull

/-- The kinds of the marker and the other symbol of a live constraint. -/
def kindsFor (relation : Option Relation) (isRequired : Bool) :
    Option Symbol.Kind × Option Symbol.Kind :=
  match relation, isRequired with
  | some .equal, true => (some .dummy, none)
  | some .equal, false => (some .error, some .error)
  | _, true => (some .slack, none)
  | _, false => (some .slack, some .error)

variable {relation : Option Relation} {isRequired : Bool} {markers : Markers}

theorem mem_symbols_iff (markers : Markers) (symbol : Symbol) :
    symbol ∈ markers.symbols ↔
      (symbol = markers.marker ∨ symbol = markers.other) ∧ symbol.id ≠ 0 := by
  simp [symbols, Symbol.isNull]

/-- A fitting constraint owns one symbol if it is required and two if it is not. -/
theorem Fit.symbols_eq (fit : markers.Fit kinds relation isRequired) :
    markers.symbols = if isRequired then [markers.marker] else [markers.marker, markers.other] := by
  have marker := fit.marker_proper.isNull_eq_false
  cases isRequired with
  | true => simp [symbols, marker, fit.other_absent rfl]
  | false => simp [symbols, marker, (fit.other_proper rfl).1.isNull_eq_false]

theorem Fit.kinds_eq (fit : markers.Fit kinds relation isRequired) :
    (markers.marker.kind?, markers.other.kind?) = kindsFor relation isRequired := by
  rw [fit.marker_proper.kind?_eq, fit.marker_kind]
  cases isRequired with
  | true =>
      rw [fit.other_absent rfl]
      rcases relation with _ | _ | _ | _ <;> rfl
  | false =>
      obtain ⟨proper, is_error⟩ := fit.other_proper rfl
      rw [proper.kind?_eq, is_error]
      rcases relation with _ | _ | _ | _ <;> rfl

theorem Fit.nodup_symbols (fit : markers.Fit kinds relation isRequired) :
    (markers.symbols.map Symbol.id).Nodup := by
  rw [fit.symbols_eq]
  split
  · exact List.nodup_singleton _
  · simpa using fit.apart.symm

/-- No marker is an unknown. -/
theorem Fit.proper_symbols (fit : markers.Fit kinds relation isRequired) :
    ∀ symbol ∈ markers.symbols, symbol.Proper kinds ∧ kinds symbol.id ≠ .external := by
  intro symbol member
  obtain ⟨inside, present⟩ := (markers.mem_symbols_iff symbol).mp member
  exact ⟨fit.proper inside present, fit.internal inside present⟩

end Markers

omit [Scalar α] in
theorem Constraint.owns_of_mem_symbols {constraint : Constraint α} {symbol : Symbol}
    (member : symbol ∈ constraint.markers.symbols) : constraint.Owns symbol.id := by
  obtain ⟨inside, present⟩ := (constraint.markers.mem_symbols_iff symbol).mp member
  exact owns_of_present inside present

namespace Solver

/-- The symbols of the registered variables. -/
def unknownSymbols (solver : Solver α) : List Symbol :=
  solver.unknowns.listing.map fun entry => ⟨entry.1, .external⟩

/-- The symbols that the constraints own. -/
def markerSymbols (solver : Solver α) : List Symbol :=
  solver.constraints.listing.flatMap fun entry => entry.2.markers.symbols

/-- The symbols that occur anywhere: as basic symbols, in rows, prices and expressions, as markers
and variables, and among what remains to be done. -/
def occurring (solver : Solver α) : List Symbol :=
  solver.tableau.equations.flatMap (fun row => row.1 :: row.2.terms.map Prod.fst) ++
    solver.tableau.objective.terms.map Prod.fst ++
    solver.constraints.listing.flatMap (fun entry => entry.2.expression.terms.map Prod.fst) ++
    solver.markerSymbols ++ solver.unknownSymbols ++
    solver.tableau.agenda.repairs ++ solver.tableau.agenda.touched ++ solver.stale

/-- Constraints that take no part own nothing, and live ones what their relations and strengths ask
for. Nothing is owned twice, all symbols that occur have been drawn, and each number occurs with one
kind. -/
structure Coherent (solver : Solver α) : Prop where
  detached : ∀ key constraint, solver.constraints.get? key = some constraint →
    constraint.isActive = false → constraint.markers = Markers.absent
  live : ∀ key constraint, solver.constraints.get? key = some constraint →
    constraint.isActive = true → (constraint.markers.marker.kind?, constraint.markers.other.kind?) =
      Markers.kindsFor constraint.relation constraint.strength.isRequired
  distinct : ((solver.unknownSymbols ++ solver.markerSymbols).map Symbol.id).Nodup
  drawn : ∀ symbol ∈ solver.occurring, symbol.id ≠ 0 ∧ symbol.id ≤ solver.symbols.last
  unambiguous : ∀ symbol ∈ solver.occurring, ∀ other ∈ solver.occurring,
    symbol.id = other.id → symbol.kind = other.kind

namespace Accounted

variable (accounted : solver.Accounted kinds)

include accounted

theorem proper_unknownSymbols : ∀ symbol ∈ solver.unknownSymbols,
    symbol.Proper kinds ∧ symbol.id ≤ solver.symbols.last := by
  intro symbol member
  obtain ⟨⟨id, state⟩, inside, rfl⟩ := List.mem_map.mp member
  obtain ⟨proper, external, low⟩ := accounted.registered ⟨id, .external⟩ state
    ((solver.unknowns.mem_listing_iff _ _).mp inside)
  exact ⟨⟨proper, external.symm⟩, low⟩

theorem placed_of_mem {entry : Nat × Constraint α} (member : entry ∈ solver.constraints.listing) :
    entry.2.Placed kinds solver.symbols.last :=
  accounted.filed.placed ⟨entry.1, .external⟩ entry.2
    ((solver.constraints.mem_listing_iff ⟨entry.1, .external⟩ _).mp member)

theorem proper_markerSymbols : ∀ symbol ∈ solver.markerSymbols,
    (symbol.Proper kinds ∧ kinds symbol.id ≠ .external) ∧ symbol.id ≤ solver.symbols.last := by
  intro symbol member
  obtain ⟨entry, listed, inside⟩ := List.mem_flatMap.mp member
  have placed := accounted.placed_of_mem listed
  refine ⟨?_, placed.owned _ (Constraint.owns_of_mem_symbols inside)⟩
  rcases placed.markers with absent | fit
  · rw [absent] at inside
    exact absurd inside List.not_mem_nil
  · exact fit.proper_symbols symbol inside

/-- No two constraints own one symbol, and neither does one own it twice. -/
theorem nodup_markerSymbols : (solver.markerSymbols.map Symbol.id).Nodup := by
  unfold markerSymbols
  rw [List.map_flatMap, List.nodup_flatMap]
  constructor
  · intro entry listed
    rcases (accounted.placed_of_mem listed).markers with absent | fit
    · rw [absent]
      exact List.nodup_nil
    · exact fit.nodup_symbols
  · apply List.Pairwise.imp_of_mem _ (List.pairwise_map.mp solver.constraints.numbers_nodup)
    intro first second listed listed' distinct id inside inside'
    obtain ⟨symbol, member, rfl⟩ := List.mem_map.mp inside
    obtain ⟨other, member', same⟩ := List.mem_map.mp inside'
    have owned := Constraint.owns_of_mem_symbols member
    have owned' := same ▸ Constraint.owns_of_mem_symbols member'
    exact accounted.filed.apart ⟨first.1, .external⟩ ⟨second.1, .external⟩ first.2 second.2
      ((solver.constraints.mem_listing_iff _ _).mp listed)
      ((solver.constraints.mem_listing_iff _ _).mp listed') distinct symbol.id owned owned'

/-- Every symbol that occurs is proper, and none is above the last one drawn. -/
theorem proper_occurring : ∀ symbol ∈ solver.occurring,
    symbol.Proper kinds ∧ symbol.id ≤ solver.symbols.last := by
  have written : ∀ form : LinearForm α,
      form.Over (solver.tableau.FreeWithin kinds (· ≤ solver.symbols.last)) →
        ∀ symbol ∈ form.terms.map Prod.fst, symbol.Proper kinds ∧ symbol.id ≤ solver.symbols.last :=
    fun form spanned => List.forall_mem_map.mpr fun term member =>
      ⟨(spanned term member).1.1, (spanned term member).2⟩
  intro symbol member
  simp only [occurring, List.mem_append] at member
  rcases member with (((((((basic | price) | expression) | marker) | unknown) | repair) | touched) |
    waiting)
  · obtain ⟨row, listed, inside⟩ := List.mem_flatMap.mp basic
    rcases List.mem_cons.mp inside with rfl | inside
    · exact accounted.ordered.basic row listed
    · exact written row.2 (accounted.ordered.written row listed) symbol inside
  · exact written _ accounted.ordered.objective symbol price
  · obtain ⟨entry, listed, inside⟩ := List.mem_flatMap.mp expression
    obtain ⟨term, member, rfl⟩ := List.mem_map.mp inside
    exact (accounted.placed_of_mem listed).expression term member
  · exact (accounted.proper_markerSymbols symbol marker).imp_left And.left
  · exact accounted.proper_unknownSymbols symbol unknown
  · rw [accounted.rested] at repair
    exact absurd repair List.not_mem_nil
  · rw [accounted.untouched] at touched
    exact absurd touched List.not_mem_nil
  · exact accounted.waiting symbol waiting

theorem coherent : solver.Coherent where
  detached key constraint found := (accounted.filed.placed key constraint found).absent
  live key constraint found active :=
    ((accounted.filed.placed key constraint found).fit active).kinds_eq
  distinct := by
    rw [List.map_append, List.nodup_append']
    refine ⟨?_, accounted.nodup_markerSymbols, ?_⟩
    · unfold unknownSymbols
      rw [List.map_map]
      exact solver.unknowns.numbers_nodup
    -- Markers are internal and variables external, so no number serves as both.
    · intro id unknown marker
      obtain ⟨symbol, member, rfl⟩ := List.mem_map.mp unknown
      obtain ⟨other, member', same⟩ := List.mem_map.mp marker
      have internal := (accounted.proper_markerSymbols other member').1.2
      obtain ⟨entry, _, rfl⟩ := List.mem_map.mp member
      have external := (accounted.proper_unknownSymbols _ member).1.2
      rw [same] at internal
      exact internal external.symm
  drawn symbol occurs :=
    ⟨(accounted.proper_occurring symbol occurs).1.1, (accounted.proper_occurring symbol occurs).2⟩
  unambiguous symbol occurs other occurs' same := by
    rw [(accounted.proper_occurring symbol occurs).1.2,
      (accounted.proper_occurring other occurs').1.2, same]

end Accounted

end Solver

namespace Course

variable {course : Course α}

/-- The command comes to an end. -/
abbrev Ends (course : Course α) (command : Command α) (steps : Nat) : Prop :=
  (course.solver.perform command steps).1.isFinal = true

/-- Everything is accounted for after every history of commands that come to an end. -/
theorem Arises.accountable (unit : Scalar.negligible (0 + -1 : α) = false)
    (arises : course.Arises Ends) : course.solver.Accountable := by
  induction arises with
  | start identity options => exact ⟨_, Solver.Accounted.new identity options⟩
  | step _ ends inductionHypothesis => exact (inductionHypothesis.perform unit _ _).2 ends

end Course

/-- Every history leads to a coherent solver, provided that the arithmetic does not take the unit
for nothing. -/
theorem symbols_coherent (unit : Scalar.negligible (0 + -1 : α) = false) {course : Course α}
    (arises : course.Arises Course.Ends) : course.solver.Coherent := by
  obtain ⟨_, accounted⟩ := arises.accountable unit
  exact accounted.coherent

/-- A variable is asked to be at most ten, and then at least twenty, which is rejected. After that
it is pulled toward five, with symbols that have been drawn before. -/
def overruled : List (Command Rat) :=
  .createVariable ::
    (Command.written 1 1000000000 [(1, 1)] .atMost 10 ++
      Command.written 2 1000000000 [(1, 1)] .atLeast 20 ++
      Command.written 3 1 [(1, 1)] .equal 5)

theorem overruled_symbols_coherent :
    @Solver.Coherent Rat Rational.tolerant (afterTolerant overruled).solver :=
  @symbols_coherent Rat Rational.tolerant (by decide +kernel) _
    (arises_afterTolerant (by decide +kernel))

end SoftSimplex
