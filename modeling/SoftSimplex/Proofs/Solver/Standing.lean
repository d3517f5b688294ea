import SoftSimplex.Proofs.Solver.Books
import SoftSimplex.Proofs.Tableau.Trial

/-!
# Solvers in good standing

The ledger of a solver lists its active constraints, each with its expression as it is by now: the
expression of an edit moves with its target, which an offset keeps account of. A solver is in good
standing if its catalogs are in order and its tableau stands for this ledger.
-/

namespace SoftSimplex

namespace Catalog

variable {constraints other : Catalog (Constraint Rat)} {offset : Nat → Rat} {key : Symbol}
  {constraint : Constraint Rat}

/-- The active constraints, each lowered by the offset of its key. -/
def ledger (constraints : Catalog (Constraint Rat)) (offset : Nat → Rat) : Ledger :=
  (constraints.listing.filter fun entry => entry.2.isActive).map fun entry =>
    entry.2.lowered (offset entry.1)

theorem mem_ledger_iff (constraints : Catalog (Constraint Rat)) (offset : Nat → Rat)
    (entry : Constraint Rat) :
    entry ∈ constraints.ledger offset ↔ ∃ key constraint,
      constraints.get? key = some constraint ∧ constraint.isActive = true ∧
        entry = constraint.lowered (offset key.id) := by
  unfold ledger
  rw [List.mem_map]
  constructor
  · rintro ⟨⟨id, constraint⟩, member, rfl⟩
    obtain ⟨inside, active⟩ := List.mem_filter.mp member
    exact ⟨⟨id, .external⟩, constraint, (constraints.mem_listing_iff _ _).mp inside, active, rfl⟩
  · rintro ⟨key, constraint, found, active, rfl⟩
    exact ⟨(key.id, constraint), List.mem_filter.mpr
      ⟨(constraints.mem_listing_iff key constraint).mpr found, active⟩, rfl⟩

theorem mem_ledger (found : constraints.get? key = some constraint)
    (active : constraint.isActive = true) (offset : Nat → Rat) :
    constraint.lowered (offset key.id) ∈ constraints.ledger offset :=
  (constraints.mem_ledger_iff offset _).mpr ⟨key, constraint, found, active, rfl⟩

theorem ledger_perm_of_listing (perm : constraints.listing.Perm other.listing)
    (offset : Nat → Rat) : (constraints.ledger offset).Perm (other.ledger offset) :=
  (perm.filter _).map _

/-- An active constraint and the rest of the ledger. -/
theorem ledger_perm_cons (found : constraints.get? key = some constraint)
    (active : constraint.isActive = true) (offset : Nat → Rat) :
    (constraints.ledger offset).Perm
      (constraint.lowered (offset key.id) :: (constraints.erase key).ledger offset) := by
  have split := ((listing_perm_cons found).filter fun entry => entry.2.isActive).map
    fun entry => entry.2.lowered (offset entry.1)
  rw [List.filter_cons_of_pos (by exact active)] at split
  exact split

/-- An inactive constraint is not in the ledger. -/
theorem ledger_perm_erase
    (inactive : ∀ constraint, constraints.get? key = some constraint →
      constraint.isActive = false) (offset : Nat → Rat) :
    (constraints.ledger offset).Perm ((constraints.erase key).ledger offset) := by
  cases found : constraints.get? key with
  | none => exact ledger_perm_of_listing (listing_erase_perm_of_absent found).symm offset
  | some constraint =>
      have split := ((listing_perm_cons found).filter fun entry => entry.2.isActive).map
        fun entry => entry.2.lowered (offset entry.1)
      rw [List.filter_cons_of_neg (by simp [inactive constraint found])] at split
      exact split

/-- Changing a constraint into an active one. -/
theorem ledger_modify_perm_cons (found : constraints.get? key = some constraint)
    (change : Constraint Rat → Constraint Rat) (active : (change constraint).isActive = true)
    (offset : Nat → Rat) :
    ((constraints.modify key change).ledger offset).Perm
      ((change constraint).lowered (offset key.id) :: (constraints.erase key).ledger offset) := by
  have changed : (constraints.modify key change).get? key = some (change constraint) := by
    rw [get?_modify, if_pos rfl, found, Option.map_some]
  refine (ledger_perm_cons changed active offset).trans (List.Perm.cons _ ?_)
  exact ledger_perm_of_listing
    (listing_perm fun sought => erase_modify_get? constraints key sought change) offset

/-- Changing a constraint into one that is not active. -/
theorem ledger_modify_perm (change : Constraint Rat → Constraint Rat)
    (inactive : ∀ constraint, (change constraint).isActive = false) (offset : Nat → Rat) :
    ((constraints.modify key change).ledger offset).Perm
      ((constraints.erase key).ledger offset) := by
  refine (ledger_perm_erase (fun changed found => ?_) offset).trans
    (ledger_perm_of_listing
      (listing_perm fun sought => erase_modify_get? constraints key sought change) offset)
  rw [get?_modify, if_pos rfl] at found
  obtain ⟨before, _, rfl⟩ := Option.map_eq_some_iff.mp found
  exact inactive before

/-- Offsets count where constraints are active. -/
theorem ledger_congr {offset' : Nat → Rat}
    (same : ∀ key constraint, constraints.get? key = some constraint →
      constraint.isActive = true → offset' key.id = offset key.id) :
    constraints.ledger offset' = constraints.ledger offset := by
  refine List.map_congr_left fun entry member => ?_
  obtain ⟨inside, active⟩ := List.mem_filter.mp member
  rw [same ⟨entry.1, .external⟩ entry.2 ((constraints.mem_listing_iff ⟨entry.1, .external⟩ _).mp
    inside) active]

/-- The rest of the ledger does not depend on the offset of a key that has left. -/
theorem ledger_erase_update (constraints : Catalog (Constraint Rat)) (offset : Nat → Rat)
    (key : Symbol) (number : Rat) :
    (constraints.erase key).ledger (Function.update offset key.id number) =
      (constraints.erase key).ledger offset := by
  refine ledger_congr fun sought constraint found _ => ?_
  rw [get?_erase] at found
  split at found
  · exact absurd found (by simp)
  · rename_i apart
    exact Function.update_of_ne apart _ _

end Catalog

namespace Solver

variable {discipline : Discipline} {kinds kinds' : Nat → Symbol.Kind} {offset : Nat → Rat}
  {solver other : Solver Rat}

/-- Numbers in use are below those to be drawn, expressions are reduced and over variables, and a
constraint that is not active owns no symbol. -/
structure Orderly (kinds : Nat → Symbol.Kind) (solver : Solver Rat) : Prop where
  registers : solver.Registers kinds
  variable_below : ∀ symbol state, solver.unknowns.get? symbol = some state →
    symbol.id ≤ solver.symbols.last
  expression : ∀ key constraint, solver.constraints.get? key = some constraint →
    constraint.expression.Over fun symbol =>
      (symbol.Proper kinds ∧ symbol.isExternal = true) ∧ symbol.id ≤ solver.symbols.last
  reduced : ∀ key constraint, solver.constraints.get? key = some constraint →
    constraint.expression.Reduced
  inactive : ∀ key constraint, solver.constraints.get? key = some constraint →
    constraint.isActive = false → constraint.markers = Markers.absent
  owned : ∀ key constraint, solver.constraints.get? key = some constraint →
    ∀ id, constraint.Owns id → id ≤ solver.symbols.last
  key_below : ∀ key constraint, solver.constraints.get? key = some constraint →
    key.id ≤ solver.lastConstraint

/-- The catalogs are in order, no two active constraints share a symbol, and no weight is negative
if the discipline promises it. -/
structure Catalogued (discipline : Discipline) (kinds : Nat → Symbol.Kind)
    (offset : Nat → Rat) (solver : Solver Rat) : Prop extends Orderly kinds solver where
  entries : Ledger.Regular kinds (solver.constraints.ledger offset)
  weights : discipline.priced → ∀ key constraint,
    solver.constraints.get? key = some constraint → 0 ≤ constraint.strength.weight

/-- The tableau stands for the ledger, nothing remains to be done, and out-of-date caches are
marked. -/
structure Standing (discipline : Discipline) (kinds : Nat → Symbol.Kind)
    (offset : Nat → Rat) (solver : Solver Rat) : Prop
    extends Catalogued discipline kinds offset solver where
  stands : solver.tableau.Stands kinds (solver.constraints.ledger offset)
    (solver.constraints.ledger offset)
  untouched : solver.tableau.agenda.touched = []
  restful : solver.tableau.Restful discipline
  watched : solver.Watched

namespace Orderly

/-- No entry of the ledger speaks of a symbol that is yet to be drawn. -/
theorem below (orderly : solver.Orderly kinds) (offset : Nat → Rat) :
    (solver.constraints.ledger offset).Below solver.symbols.last := by
  intro entry member
  obtain ⟨key, constraint, found, _, rfl⟩ :=
    (solver.constraints.mem_ledger_iff offset entry).mp member
  exact ⟨(orderly.expression key constraint found).mono fun _ both => both.2,
    orderly.owned key constraint found⟩

/-- Kinds of symbols that are yet to be drawn may change. -/
theorem rekind (orderly : solver.Orderly kinds)
    (agree : ∀ id, id ≠ 0 → id ≤ solver.symbols.last → kinds' id = kinds id) :
    solver.Orderly kinds' := by
  refine ⟨fun symbol state found => ?_, orderly.variable_below, fun key constraint found => ?_,
    orderly.reduced, orderly.inactive, orderly.owned, orderly.key_below⟩
  · obtain ⟨proper, external⟩ := orderly.registers symbol state found
    exact ⟨proper, (agree _ proper (orderly.variable_below symbol state found)).trans external⟩
  · refine (orderly.expression key constraint found).mono fun symbol both => ⟨⟨⟨both.1.1.1, ?_⟩,
      both.1.2⟩, both.2⟩
    rw [agree _ both.1.1.1 both.2]
    exact both.1.1.2

end Orderly

/-- A constraint that takes no part, with an expression that could. -/
structure Dormant (discipline : Discipline) (kinds : Nat → Symbol.Kind) (mark : Nat)
    (constraint : Constraint Rat) : Prop where
  absent : constraint.markers = Markers.absent
  expression : constraint.expression.Over fun symbol =>
    (symbol.Proper kinds ∧ symbol.isExternal = true) ∧ symbol.id ≤ mark
  reduced : constraint.expression.Reduced
  weight : discipline.priced → 0 ≤ constraint.strength.weight

theorem Dormant.isActive {mark : Nat} {constraint : Constraint Rat}
    (dormant : Dormant discipline kinds mark constraint) : constraint.isActive = false := by
  rw [Constraint.isActive, dormant.absent]
  rfl

namespace Catalogued

/-- The catalogs stay in order if variables only go and constraints go or fall dormant. -/
theorem of_origin (catalogued : solver.Catalogued discipline kinds offset) (other : Solver Rat)
    (registered : ∀ symbol state, other.unknowns.get? symbol = some state →
      ∃ before, solver.unknowns.get? symbol = some before)
    (symbols : solver.symbols.last ≤ other.symbols.last)
    (origin : ∀ key constraint, other.constraints.get? key = some constraint →
      key.id ≤ other.lastConstraint ∧ (solver.constraints.get? key = some constraint ∨
        Dormant discipline kinds solver.symbols.last constraint))
    {offset' : Nat → Rat} (entries : Ledger.Regular kinds (other.constraints.ledger offset')) :
    other.Catalogued discipline kinds offset' := by
  refine ⟨⟨?_, ?_, ?_, ?_, ?_, ?_, fun key constraint found => (origin key constraint found).1⟩,
    entries, ?_⟩
  · intro symbol state found
    obtain ⟨before, was⟩ := registered symbol state found
    exact catalogued.registers symbol before was
  · intro symbol state found
    obtain ⟨before, was⟩ := registered symbol state found
    exact (catalogued.variable_below symbol before was).trans symbols
  · intro key constraint found
    have spanned : constraint.expression.Over fun symbol =>
        (symbol.Proper kinds ∧ symbol.isExternal = true) ∧ symbol.id ≤ solver.symbols.last := by
      rcases (origin key constraint found).2 with before | dormant
      · exact catalogued.expression key constraint before
      · exact dormant.expression
    exact spanned.mono fun _ both => ⟨both.1, both.2.trans symbols⟩
  · intro key constraint found
    rcases (origin key constraint found).2 with before | dormant
    · exact catalogued.reduced key constraint before
    · exact dormant.reduced
  · intro key constraint found inactive
    rcases (origin key constraint found).2 with before | dormant
    · exact catalogued.inactive key constraint before inactive
    · exact dormant.absent
  · intro key constraint found id owned
    rcases (origin key constraint found).2 with before | dormant
    · exact (catalogued.owned key constraint before id owned).trans symbols
    · obtain ⟨proper, same⟩ := owned
      rw [dormant.absent] at same
      exact absurd (same.elim Eq.symm Eq.symm) proper
  · intro is_priced key constraint found
    rcases (origin key constraint found).2 with before | dormant
    · exact catalogued.weights is_priced key constraint before
    · exact dormant.weight is_priced

/-- A constraint that is not active is dormant. -/
theorem dormant (catalogued : solver.Catalogued discipline kinds offset) {key : Symbol}
    {constraint : Constraint Rat} (found : solver.constraints.get? key = some constraint)
    (inactive : constraint.isActive = false) :
    Dormant discipline kinds solver.symbols.last constraint where
  absent := catalogued.inactive key constraint found inactive
  expression := catalogued.expression key constraint found
  reduced := catalogued.reduced key constraint found
  weight is_priced := catalogued.weights is_priced key constraint found

theorem rekind (catalogued : solver.Catalogued discipline kinds offset)
    (agree : ∀ id, id ≠ 0 → id ≤ solver.symbols.last → kinds' id = kinds id) :
    solver.Catalogued discipline kinds' offset := by
  refine ⟨catalogued.toOrderly.rekind agree, ⟨fun entry member => ?_, catalogued.entries.apart⟩,
    catalogued.weights⟩
  have fit := catalogued.entries.fit entry member
  obtain ⟨spanned, owned⟩ := catalogued.toOrderly.below offset entry member
  have keep : ∀ symbol : Symbol, symbol.Proper kinds → symbol.id ≤ solver.symbols.last →
      symbol.Proper kinds' := fun symbol proper low =>
    ⟨proper.1, by rw [agree _ proper.1 low]; exact proper.2⟩
  refine ⟨(fit.expression.and spanned).mono fun symbol both => ⟨keep symbol both.1.1 both.2,
    both.1.2⟩, ⟨?_, fit.markers.marker_kind, fit.markers.other_absent, fun soft => ?_,
      fit.markers.apart⟩⟩
  · exact keep _ fit.markers.marker_proper (owned _ fit.owns_marker)
  · obtain ⟨proper, kind⟩ := fit.markers.other_proper soft
    exact ⟨keep _ proper (owned _ ⟨proper.1, Or.inr rfl⟩), kind⟩

/-- The weights of the ledger. -/
theorem priced (catalogued : solver.Catalogued discipline kinds offset)
    (is_priced : discipline.priced) : (solver.constraints.ledger offset).Priced := by
  intro entry member
  obtain ⟨key, constraint, found, _, rfl⟩ :=
    (solver.constraints.mem_ledger_iff offset entry).mp member
  exact catalogued.weights is_priced key constraint found

/-- Work on the tableau leaves the catalogs in order. -/
theorem of_sameBooks {ignored : Nat → Prop} (catalogued : solver.Catalogued discipline kinds offset)
    (same : SameBooks ignored solver other)
    (symbols : solver.symbols.last ≤ other.symbols.last) :
    other.Catalogued discipline kinds offset := by
  refine catalogued.of_origin other (fun symbol state found => ?_) symbols
    (fun key constraint found => ?_) ?_
  · obtain ⟨before, was, _⟩ := same.exists_of_get? found
    exact ⟨before, was⟩
  · rw [same.constraints] at found
    rw [same.lastConstraint]
    exact ⟨catalogued.key_below key constraint found, Or.inl found⟩
  · rw [same.constraints]
    exact catalogued.entries

end Catalogued

end Solver

end SoftSimplex
