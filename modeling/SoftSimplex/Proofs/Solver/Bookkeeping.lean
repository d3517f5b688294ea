import SoftSimplex.Proofs.Solver.Activation
import SoftSimplex.Solver.Editing

/-!
# Bookkeeping

Changes of the books that leave the tableau alone, and what a solver keeps about edited variables.
The hidden constraint of an edited variable is live from the moment the edit begins. When an edit
ends, its constraint is loose until it has been removed, so every constraint that was issued to
nobody belongs to an edit. Nothing but edits moves the expression of a constraint.
-/

namespace SoftSimplex

variable {discipline : Discipline} {kinds : Nat → Symbol.Kind} {offset offset' : Nat → Rat}

namespace Catalog

/-- Catalogs with the same active constraints have the same ledger up to order. -/
theorem ledger_perm_of_active {constraints other : Catalog (Constraint Rat)}
    (same : ∀ key constraint, constraint.isActive = true →
      (other.get? key = some constraint ↔ constraints.get? key = some constraint))
    (offset : Nat → Rat) : (other.ledger offset).Perm (constraints.ledger offset) := by
  refine List.Perm.map _ ((List.perm_ext_iff_of_nodup (other.listing_nodup.filter _)
    (constraints.listing_nodup.filter _)).mpr ?_)
  rintro ⟨id, constraint⟩
  rw [List.mem_filter, List.mem_filter, other.mem_listing_iff ⟨id, .external⟩,
    constraints.mem_listing_iff ⟨id, .external⟩]
  exact and_congr_left fun active => same _ constraint active

end Catalog

namespace Solver

variable {solver other : Solver Rat}

/-- Good standing survives changes of the books that spare the active constraints and the
caches. -/
theorem Standing.rebooked (standing : solver.Standing discipline kinds offset)
    (other : Solver Rat) (tableau : other.tableau = solver.tableau)
    (stale : other.stale = solver.stale)
    (symbols : other.symbols = solver.symbols)
    (registered : ∀ symbol state, other.unknowns.get? symbol = some state →
      ∃ before, solver.unknowns.get? symbol = some before ∧ state.isStale = before.isStale ∧
        state.value = before.value)
    (active : ∀ key constraint, constraint.isActive = true →
      (other.constraints.get? key = some constraint ↔
        solver.constraints.get? key = some constraint))
    (idle : ∀ key constraint, other.constraints.get? key = some constraint →
      key.id ≤ other.lastConstraint ∧ (constraint.isActive = false →
        Dormant discipline kinds solver.symbols.last constraint)) :
    other.Standing discipline kinds offset := by
  have perm := Catalog.ledger_perm_of_active active offset
  have quiet : ∀ id, other.Quiet id ↔ solver.Quiet id := by
    refine fun id => forall₂_congr fun key constraint => ?_
    exact ⟨fun holds there is_active => holds ((active key constraint is_active).mpr there)
      is_active, fun holds there is_active => holds ((active key constraint is_active).mp there)
        is_active⟩
  refine ⟨standing.toCatalogued.of_origin other (fun symbol state found => ?_)
    (congrArg SymbolSupply.last symbols).ge (fun key constraint found => ?_)
    (standing.entries.perm perm.symm), ?_, ?_, ?_, ?_⟩
  · obtain ⟨before, was, _⟩ := registered symbol state found
    exact ⟨before, was⟩
  · obtain ⟨below, dormant⟩ := idle key constraint found
    refine ⟨below, ?_⟩
    cases is_active : constraint.isActive with
    | true => exact Or.inl ((active key constraint is_active).mp found)
    | false => exact Or.inr (dormant is_active)
  · rw [tableau]
    exact standing.stands.perm perm.symm perm.symm
  · rw [tableau]
    exact standing.untouched
  · rw [tableau]
    exact standing.restful
  · refine ⟨fun symbol state found is_stale => ?_, fun symbol state found calm busy => ?_⟩
    · obtain ⟨before, was, stale_too, _⟩ := registered symbol state found
      obtain ⟨noted, member, named⟩ := standing.watched.queued symbol before was
        (stale_too.symm.trans is_stale)
      exact ⟨noted, by rw [stale]; exact member, named⟩
    · obtain ⟨before, was, stale_too, value⟩ := registered symbol state found
      rw [value, tableau]
      exact standing.watched.cached symbol before was (stale_too.symm.trans calm)
        (mt (quiet symbol.id).mpr busy)

end Solver

/-- The constraint pulls a variable to where its expression vanishes. -/
structure Constraint.Pulls (constraint : Constraint Rat) (symbol : Symbol) : Prop where
  active : constraint.isActive = true
  relation : constraint.relation = some .equal
  soft : constraint.strength.isRequired = false
  expression : ∀ assignment, constraint.expression.eval assignment =
    symbol.under assignment + constraint.expression.constant

/-- What is known about the edit of a variable. -/
def Variable.aim (state : Variable Rat) : Option Symbol × Rat :=
  (state.edit, state.target)

namespace Solver

variable {solver other third : Solver Rat} {issued issued' loose loose' : Nat → Prop}

/-- The symbol is a registered variable that is edited under the key. -/
def Edits (solver : Solver Rat) (symbol key : Symbol) (target : Rat) : Prop :=
  ∃ state, solver.unknowns.get? symbol = some state ∧ state.edit = some key ∧
    state.target = target

theorem edits_congr {symbol : Symbol}
    (aims : (other.unknowns.get? symbol).map Variable.aim =
      (solver.unknowns.get? symbol).map Variable.aim) (key : Symbol) (target : Rat) :
    other.Edits symbol key target ↔ solver.Edits symbol key target := by
  have shape : ∀ one : Solver Rat, one.Edits symbol key target ↔
      (one.unknowns.get? symbol).map Variable.aim = some (some key, target) := by
    intro one
    rw [Option.map_eq_some_iff]
    refine exists_congr fun state => and_congr_right fun _ => ?_
    rw [Variable.aim, Prod.mk.injEq]
  rw [shape, shape, aims]

/-- The number was issued, or is loose, or is that of the hidden constraint of an edited
variable. -/
def Claims (issued loose : Nat → Prop) (solver : Solver Rat) (id : Nat) : Prop :=
  issued id ∨ loose id ∨ ∃ symbol key target, solver.Edits symbol key target ∧ key.id = id

/-- Every edited variable has its hidden constraint, which was issued to nobody, and every
constraint that was issued to nobody is such a one, loose ones apart. The offset of a hidden
constraint moves its expression to the present target, and all other expressions are as they were
written, those of loose constraints apart. -/
structure Editing (issued loose : Nat → Prop) (offset : Nat → Rat) (solver : Solver Rat) :
    Prop where
  pulled : ∀ symbol key target, solver.Edits symbol key target →
    (∃ constraint, solver.constraints.get? key = some constraint ∧ constraint.Pulls symbol ∧
      offset key.id = target + constraint.expression.constant) ∧
        ¬ issued key.id ∧ ¬ loose key.id
  loosened : ∀ key : Symbol, loose key.id → ¬ issued key.id ∧
    ∃ constraint, solver.constraints.get? key = some constraint ∧
      constraint.strength.isRequired = false
  settled : ∀ id, offset id ≠ 0 → loose id ∨
    ∃ symbol key target, solver.Edits symbol key target ∧ key.id = id
  issued_below : ∀ id, issued id → id ≤ solver.lastConstraint
  claimed : ∀ key constraint, solver.constraints.get? key = some constraint →
    solver.Claims issued loose key.id

namespace Editing

variable (editing : solver.Editing issued loose offset)

include editing

/-- No two variables are edited under one key. -/
theorem unique (registers : solver.Registers kinds) {symbol symbol' key key' : Symbol}
    {target target' : Rat} (edits : solver.Edits symbol key target)
    (edits' : solver.Edits symbol' key' target') (same : key.id = key'.id) :
    symbol.id = symbol'.id := by
  obtain ⟨⟨constraint, found, pulls, _⟩, _⟩ := editing.pulled symbol key target edits
  obtain ⟨⟨constraint', found', pulls', _⟩, _⟩ := editing.pulled symbol' key' target' edits'
  rw [solver.constraints.get?_congr same, found'] at found
  obtain rfl := Option.some.inj found
  obtain ⟨state, registered, _⟩ := edits
  have proper := (registers symbol state registered).1
  have equal := (pulls.expression (Assignment.unit symbol.id)).symm.trans
    (pulls'.expression (Assignment.unit symbol.id))
  by_contra apart
  rw [Symbol.under_of_ne_zero proper, Symbol.under_unit_of_ne (Ne.symm apart)] at equal
  simp [Assignment.unit] at equal

/-- Offsets of constraints that belong to no edit are due to edits that have ended. -/
theorem loose_of_moved (orderly : solver.Orderly kinds) {id : Nat}
    (apart : issued id ∨ loose id ∨ solver.lastConstraint < id) (moved : offset id ≠ 0) :
    loose id := by
  rcases editing.settled id moved with is_loose | ⟨symbol, key, target, edits, rfl⟩
  · exact is_loose
  · obtain ⟨⟨constraint, found, _⟩, unissued, _⟩ := editing.pulled symbol key target edits
    rcases apart with is_issued | is_loose | above
    · exact absurd is_issued unissued
    · exact is_loose
    · exact absurd (orderly.key_below key constraint found) (not_le.mpr above)

/-- The expression of a constraint that was issued is as it was written. -/
theorem offset_eq_zero (orderly : solver.Orderly kinds) {id : Nat} (is_issued : issued id) :
    offset id = 0 := by
  by_contra moved
  have is_loose := editing.loose_of_moved orderly (Or.inl is_issued) moved
  exact (editing.loosened ⟨id, .external⟩ is_loose).1 is_issued

/-- Edits survive whatever spares their variables and hidden constraints. -/
theorem kept (orderly : solver.Orderly kinds) (other : Solver Rat)
    (same : ∀ symbol key target,
      other.Edits symbol key target ↔ solver.Edits symbol key target)
    (spared : ∀ key : Symbol, key.id ≤ solver.lastConstraint → ¬ issued key.id → ¬ loose key.id →
      other.constraints.get? key = solver.constraints.get? key ∧
        offset' key.id = offset key.id ∧ ¬ issued' key.id ∧ ¬ loose' key.id)
    (loosened : ∀ key : Symbol, loose' key.id → ¬ issued' key.id ∧
      ∃ constraint, other.constraints.get? key = some constraint ∧
        constraint.strength.isRequired = false)
    (settled : ∀ id, issued id ∨ loose id ∨ solver.lastConstraint < id → offset' id ≠ 0 →
      loose' id)
    (issued_below : ∀ id, issued' id → id ≤ other.lastConstraint)
    (claimed : ∀ key constraint, other.constraints.get? key = some constraint →
      solver.Claims issued' loose' key.id) :
    other.Editing issued' loose' offset' := by
  refine ⟨fun symbol key target edits => ?_, loosened, fun id moved => ?_, issued_below,
    fun key constraint found => ?_⟩
  · have edits_before := (same symbol key target).mp edits
    obtain ⟨⟨constraint, found, pulls, at_target⟩, unissued, fixed⟩ :=
      editing.pulled symbol key target edits_before
    obtain ⟨same_constraint, same_offset, unissued', fixed'⟩ :=
      spared key (orderly.key_below key constraint found) unissued fixed
    exact ⟨⟨constraint, same_constraint.trans found, pulls, same_offset.trans at_target⟩,
      unissued', fixed'⟩
  · by_cases apart : issued id ∨ loose id ∨ solver.lastConstraint < id
    · exact Or.inl (settled id apart moved)
    · push Not at apart
      obtain ⟨unissued, fixed, below⟩ := apart
      obtain ⟨_, same_offset, _⟩ := spared ⟨id, .external⟩ below unissued fixed
      have moved_before : offset id ≠ 0 := same_offset ▸ moved
      obtain ⟨symbol, key, target, edits, named⟩ :=
        (editing.settled id moved_before).resolve_left fixed
      exact Or.inr ⟨symbol, key, target, (same symbol key target).mpr edits, named⟩
  · refine (claimed key constraint found).imp_right (Or.imp_right ?_)
    rintro ⟨symbol, hidden, target, edits, named⟩
    exact ⟨symbol, hidden, target, (same symbol hidden target).mpr edits, named⟩

/-- When edits end, their hidden constraints are loose. -/
theorem loosen (registers : solver.Registers kinds) (other : Solver Rat)
    (dropped : Nat → Prop)
    (same : ∀ symbol key target, ¬ dropped symbol.id →
      (other.Edits symbol key target ↔ solver.Edits symbol key target))
    (gone : ∀ symbol key target, dropped symbol.id → ¬ other.Edits symbol key target)
    (constraints : other.constraints = solver.constraints)
    (lastConstraint : other.lastConstraint = solver.lastConstraint)
    (now_loose : ∀ id, loose' id ↔ loose id ∨
      ∃ symbol key target, dropped symbol.id ∧ solver.Edits symbol key target ∧ key.id = id) :
    other.Editing issued loose' offset := by
  have still : ∀ symbol key target, other.Edits symbol key target →
      ¬ dropped symbol.id ∧ solver.Edits symbol key target := fun symbol key target edits =>
    have stays : ¬ dropped symbol.id := fun drops => gone symbol key target drops edits
    ⟨stays, (same symbol key target stays).mp edits⟩
  refine ⟨fun symbol key target edits => ?_, fun key is_loose => ?_, fun id moved => ?_, ?_,
    fun key constraint found => ?_⟩
  · obtain ⟨stays, edits_before⟩ := still symbol key target edits
    obtain ⟨pulls, unissued, fixed⟩ := editing.pulled symbol key target edits_before
    rw [constraints]
    refine ⟨pulls, unissued, fun is_loose => ?_⟩
    rcases (now_loose key.id).mp is_loose with before | ⟨_, key', _, drops, edits', named⟩
    · exact fixed before
    · rw [editing.unique registers edits' edits_before named] at drops
      exact stays drops
  · rw [constraints]
    rcases (now_loose key.id).mp is_loose with before | ⟨symbol, key', target, _, edits, named⟩
    · exact editing.loosened key before
    · obtain ⟨⟨constraint, found, pulls, _⟩, unissued, _⟩ :=
        editing.pulled symbol key' target edits
      rw [solver.constraints.get?_congr named] at found
      rw [named] at unissued
      exact ⟨unissued, constraint, found, pulls.soft⟩
  · rcases editing.settled id moved with before | ⟨symbol, key, target, edits, named⟩
    · exact Or.inl ((now_loose id).mpr (Or.inl before))
    · by_cases drops : dropped symbol.id
      · exact Or.inl ((now_loose id).mpr (Or.inr ⟨symbol, key, target, drops, edits, named⟩))
      · exact Or.inr ⟨symbol, key, target, (same symbol key target drops).mpr edits, named⟩
  · rw [lastConstraint]
    exact editing.issued_below
  · rw [constraints] at found
    refine (editing.claimed key constraint found).imp_right ?_
    rintro (before | ⟨symbol, hidden, target, edits, named⟩)
    · exact Or.inl ((now_loose key.id).mpr (Or.inl before))
    · by_cases drops : dropped symbol.id
      · exact Or.inl ((now_loose key.id).mpr
          (Or.inr ⟨symbol, hidden, target, drops, edits, named⟩))
      · exact Or.inr ⟨symbol, hidden, target, (same symbol hidden target drops).mpr edits, named⟩

end Editing

end Solver

end SoftSimplex
