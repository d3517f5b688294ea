import SoftSimplex.Proofs.Listing
import SoftSimplex.Proofs.Tableau.Stages
import SoftSimplex.Solver.Basic

/-!
# The books of a solver

Work on the tableau leaves the books alone: the constraints stay as they are, and of the variables
only the caches and their marks change. A solver is watched if every cache that is out of date is
marked, apart from variables that no active constraint mentions.
-/

namespace SoftSimplex

/-- What is known about a variable apart from its cache. -/
def Variable.outline {α : Type} (state : Variable α) : Nat × Option Symbol × α :=
  (state.references, state.edit, state.target)

namespace Solver

variable {kinds : Nat → Symbol.Kind} {ignored : Nat → Prop} {solver other third : Solver Rat}

/-- A variable with this number waits for a refresh. -/
def Waits {α : Type} (solver : Solver α) (id : Nat) : Prop :=
  ∃ noted ∈ solver.stale, noted.id = id

instance {α : Type} (solver : Solver α) (id : Nat) : Decidable (solver.Waits id) :=
  inferInstanceAs (Decidable (∃ noted ∈ solver.stale, noted.id = id))

/-- No active constraint mentions the symbol. -/
def Quiet (solver : Solver Rat) (id : Nat) : Prop :=
  ∀ key constraint, solver.constraints.get? key = some constraint → constraint.isActive = true →
    constraint.expression.Over fun symbol => symbol.id ≠ id

/-- A marked variable waits, and the cache of any other variable holds its solved value if an
active constraint mentions it. -/
structure Watched (solver : Solver Rat) : Prop where
  queued : ∀ symbol state, solver.unknowns.get? symbol = some state → state.isStale = true →
    solver.Waits symbol.id
  cached : ∀ symbol state, solver.unknowns.get? symbol = some state → state.isStale = false →
    ¬ solver.Quiet symbol.id → state.value = solver.tableau.value symbol

/-- Nothing but the tableau, the supply of symbols and the caches has changed. The caches of
ignored variables have not changed either. -/
structure SameBooks (ignored : Nat → Prop) (solver other : Solver Rat) : Prop where
  identity : other.identity = solver.identity
  constraints : other.constraints = solver.constraints
  lastConstraint : other.lastConstraint = solver.lastConstraint
  autoUpdate : other.autoUpdate = solver.autoUpdate
  outline : ∀ symbol, (other.unknowns.get? symbol).map Variable.outline =
    (solver.unknowns.get? symbol).map Variable.outline
  watched : solver.Watched → other.Watched
  unmarked : ∀ symbol : Symbol, ignored symbol.id →
    other.unknowns.get? symbol = solver.unknowns.get? symbol ∧
      (other.Waits symbol.id ↔ solver.Waits symbol.id)

namespace SameBooks

theorem refl (ignored : Nat → Prop) (solver : Solver Rat) : SameBooks ignored solver solver :=
  ⟨rfl, rfl, rfl, rfl, fun _ => rfl, id, fun _ _ => ⟨rfl, Iff.rfl⟩⟩

theorem trans (same : SameBooks ignored solver other) (same' : SameBooks ignored other third) :
    SameBooks ignored solver third where
  identity := same'.identity.trans same.identity
  constraints := same'.constraints.trans same.constraints
  lastConstraint := same'.lastConstraint.trans same.lastConstraint
  autoUpdate := same'.autoUpdate.trans same.autoUpdate
  outline symbol := (same'.outline symbol).trans (same.outline symbol)
  watched := same'.watched ∘ same.watched
  unmarked symbol is_ignored :=
    ⟨(same'.unmarked symbol is_ignored).1.trans (same.unmarked symbol is_ignored).1,
      (same'.unmarked symbol is_ignored).2.trans (same.unmarked symbol is_ignored).2⟩

theorem mono {fewer : Nat → Prop} (same : SameBooks ignored solver other)
    (within : ∀ id, fewer id → ignored id) : SameBooks fewer solver other :=
  { same with unmarked := fun symbol is_fewer => same.unmarked symbol (within _ is_fewer) }

/-- A registered variable was registered before, with the same outline. -/
theorem exists_of_get? (same : SameBooks ignored solver other) {symbol : Symbol}
    {state : Variable Rat} (found : other.unknowns.get? symbol = some state) :
    ∃ before, solver.unknowns.get? symbol = some before ∧ before.outline = state.outline := by
  have outlines := same.outline symbol
  rw [found, Option.map_some] at outlines
  exact Option.map_eq_some_iff.mp outlines.symm

/-- Setting the supply of symbols changes nothing in the books. -/
theorem withSymbols (ignored : Nat → Prop) (solver : Solver Rat) (symbols : SymbolSupply) :
    SameBooks ignored solver { solver with symbols } :=
  ⟨rfl, rfl, rfl, rfl, fun _ => rfl, fun watched => ⟨watched.queued, watched.cached⟩,
    fun _ _ => ⟨rfl, Iff.rfl⟩⟩

end SameBooks

section Marking

variable {α : Type} {solver other : Solver α}

theorem get?_markStale (solver : Solver α) (symbol sought : Symbol) :
    (solver.markStale symbol).unknowns.get? sought =
      (solver.unknowns.get? sought).map fun state =>
        if sought.id = symbol.id then { state with isStale := true } else state := by
  unfold markStale
  cases found : solver.unknowns.get? symbol with
  | none =>
      by_cases same : sought.id = symbol.id
      · simp [solver.unknowns.get?_congr same, found]
      · simp [same]
  | some state =>
      dsimp only
      split
      · rename_i is_stale
        by_cases same : sought.id = symbol.id
        · simp [solver.unknowns.get?_congr same, found, same, ← is_stale]
        · simp [same]
      · rw [Catalog.get?_modify]
        by_cases same : sought.id = symbol.id <;> simp [same]

theorem waits_markStale {symbol : Symbol} {id : Nat} (waits : solver.Waits id) :
    (solver.markStale symbol).Waits id := by
  obtain ⟨noted, member, named⟩ := waits
  unfold markStale
  split
  · exact ⟨noted, member, named⟩
  · split
    · exact ⟨noted, member, named⟩
    · exact ⟨noted, List.mem_cons_of_mem _ member, named⟩

theorem of_waits_markStale {symbol : Symbol} {id : Nat}
    (waits : (solver.markStale symbol).Waits id) : solver.Waits id ∨ symbol.id = id := by
  unfold markStale at waits
  split at waits
  · exact Or.inl waits
  · split at waits
    · exact Or.inl waits
    · obtain ⟨noted, member, named⟩ := waits
      rcases List.mem_cons.mp member with rfl | inside
      · exact Or.inr named
      · exact Or.inl ⟨noted, inside, named⟩

/-- What marking some variables does: it changes their marks and the queue and nothing else. -/
structure Marked (symbols : List Symbol) (solver other : Solver α) : Prop where
  rest : other = { solver with unknowns := other.unknowns, stale := other.stale }
  unknowns : ∀ sought : Symbol, other.unknowns.get? sought =
    (solver.unknowns.get? sought).map fun state =>
      if ∃ symbol ∈ symbols, symbol.id = sought.id then { state with isStale := true } else state
  waits : ∀ id, solver.Waits id → other.Waits id
  origin : ∀ id, other.Waits id → solver.Waits id ∨ ∃ symbol ∈ symbols, symbol.id = id
  queued : (∀ symbol state, solver.unknowns.get? symbol = some state → state.isStale = true →
      solver.Waits symbol.id) →
    ∀ symbol state, other.unknowns.get? symbol = some state → state.isStale = true →
      other.Waits symbol.id

theorem marked_nil (solver : Solver α) : Marked [] solver solver :=
  ⟨rfl, fun _ => by simp, fun _ => id, fun _ => Or.inl, id⟩

theorem queued_markStale {symbol : Symbol}
    (queued : ∀ symbol state, solver.unknowns.get? symbol = some state → state.isStale = true →
      solver.Waits symbol.id) (sought : Symbol) (state : Variable α)
    (found : (solver.markStale symbol).unknowns.get? sought = some state)
    (is_stale : state.isStale = true) : (solver.markStale symbol).Waits sought.id := by
  rw [get?_markStale] at found
  obtain ⟨before, found', rfl⟩ := Option.map_eq_some_iff.mp found
  by_cases same : sought.id = symbol.id
  · by_cases was_stale : before.isStale = true
    · exact waits_markStale (queued sought before found' was_stale)
    · rw [solver.unknowns.get?_congr same] at found'
      exact ⟨symbol, by simp [markStale, found', was_stale], same.symm⟩
  · rw [if_neg same] at is_stale
    exact waits_markStale (queued sought before found' is_stale)

theorem marked_foldl (symbols : List Symbol) (solver : Solver α) :
    Marked symbols solver (symbols.foldl markStale solver) := by
  induction symbols generalizing solver with
  | nil => exact marked_nil solver
  | cons first others inductionHypothesis =>
      have marked := inductionHypothesis (solver.markStale first)
      rw [List.foldl_cons]
      have single : solver.markStale first = { solver with
          unknowns := (solver.markStale first).unknowns
          stale := (solver.markStale first).stale } := by
        unfold markStale
        split
        · rfl
        · split <;> rfl
      refine ⟨?_, fun sought => ?_, fun id waits => marked.waits id (waits_markStale waits),
        fun id waits => ?_, fun queued => marked.queued (queued_markStale queued)⟩
      · rw [marked.rest, single]
      · rw [marked.unknowns, get?_markStale, Option.map_map]
        refine congrArg (fun change => Option.map change _) (funext fun state => ?_)
        simp only [Function.comp_apply, List.exists_mem_cons_iff]
        by_cases here : first.id = sought.id
        · simp [here]
        · simp [here, Ne.symm here]
      · rcases marked.origin id waits with before | ⟨symbol, member, named⟩
        · rcases of_waits_markStale before with earlier | named
          · exact Or.inl earlier
          · exact Or.inr ⟨first, List.mem_cons_self, named⟩
        · exact Or.inr ⟨symbol, List.mem_cons_of_mem _ member, named⟩

theorem adopt_eq (solver : Solver α) (tableau : Tableau α) :
    solver.adopt tableau =
      tableau.agenda.touched.reverse.foldl markStale { solver with tableau := tableau.told } :=
  rfl

theorem marked_adopt (solver : Solver α) (tableau : Tableau α) :
    Marked tableau.agenda.touched.reverse { solver with tableau := tableau.told }
      (solver.adopt tableau) :=
  marked_foldl _ _

@[simp]
theorem adopt_tableau (solver : Solver α) (tableau : Tableau α) :
    (solver.adopt tableau).tableau = tableau.told := by
  rw [(solver.marked_adopt tableau).rest]

@[simp]
theorem adopt_symbols (solver : Solver α) (tableau : Tableau α) :
    (solver.adopt tableau).symbols = solver.symbols := by
  rw [(solver.marked_adopt tableau).rest]

theorem Marked.outline {symbols : List Symbol} (marked : Marked symbols solver other)
    (symbol : Symbol) : (other.unknowns.get? symbol).map Variable.outline =
      (solver.unknowns.get? symbol).map Variable.outline := by
  rw [marked.unknowns, Option.map_map]
  refine congrArg (fun change => Option.map change _) (funext fun state => ?_)
  simp only [Function.comp_apply]
  split <;> rfl

end Marking

/-- All registered variables are external symbols. -/
def Registers (kinds : Nat → Symbol.Kind) (solver : Solver Rat) : Prop :=
  ∀ symbol state, solver.unknowns.get? symbol = some state →
    symbol.id ≠ 0 ∧ kinds symbol.id = .external

/-- Taking over a tableau that tells of its changes keeps the books. -/
theorem SameBooks.adopt (registers : solver.Registers kinds)
    (untouched : solver.tableau.agenda.touched = []) {tableau : Tableau Rat}
    (tells : solver.tableau.Tells kinds ignored tableau) :
    SameBooks ignored solver (solver.adopt tableau) := by
  have marked := solver.marked_adopt tableau
  refine ⟨by rw [marked.rest], by rw [marked.rest], by rw [marked.rest], by rw [marked.rest],
    marked.outline, fun watched => ⟨marked.queued watched.queued, ?_⟩, fun symbol is_ignored => ?_⟩
  · intro symbol state found calm busy
    rw [marked.unknowns] at found
    obtain ⟨before, was, rfl⟩ := Option.map_eq_some_iff.mp found
    have busy_before : ¬ solver.Quiet symbol.id := fun quiet => busy (by
      unfold Quiet
      rw [marked.rest]
      exact quiet)
    rw [adopt_tableau]
    split at calm
    · exact Bool.noConfusion calm
    · rename_i unmarked
      rw [if_neg unmarked, watched.cached symbol before was calm busy_before]
      obtain ⟨proper, external⟩ := registers symbol before was
      rcases tells.told symbol proper external with unmoved | ⟨noted, member, named⟩
      · exact unmoved.symm
      · exact absurd ⟨noted, List.mem_reverse.mpr member, named⟩ unmarked
  · have unmarked : ¬ ∃ noted ∈ tableau.agenda.touched.reverse, noted.id = symbol.id := by
      rintro ⟨noted, member, named⟩
      rcases tells.origin noted (List.mem_reverse.mp member) with before | heeded
      · rw [untouched] at before
        exact List.not_mem_nil before
      · rw [named] at heeded
        exact heeded is_ignored
    refine ⟨?_, fun waits => ?_, marked.waits symbol.id⟩
    · rw [marked.unknowns]
      simp only [if_neg unmarked, Option.map_id']
    · exact (marked.origin symbol.id waits).resolve_right unmarked

theorem get?_refresh {α : Type} [Scalar α] (solver : Solver α) (sought : Symbol) :
    solver.refresh.unknowns.get? sought = (solver.unknowns.get? sought).map fun state =>
      if solver.Waits sought.id then state.refreshed (solver.tableau.value sought)
      else state := by
  have walk : ∀ (symbols : List Symbol) (unknowns : Catalog (Variable α)),
      (symbols.foldl (fun unknowns symbol => unknowns.modify symbol fun state =>
          state.refreshed (solver.tableau.value symbol)) unknowns).get? sought =
        (unknowns.get? sought).map fun state =>
          if ∃ symbol ∈ symbols, symbol.id = sought.id then
            state.refreshed (solver.tableau.value sought)
          else state := by
    intro symbols
    induction symbols with
    | nil => simp
    | cons first others inductionHypothesis =>
        intro unknowns
        rw [List.foldl_cons, inductionHypothesis, Catalog.get?_modify]
        simp only [List.exists_mem_cons_iff]
        by_cases here : first.id = sought.id
        · have value : solver.tableau.value first = solver.tableau.value sought := by
            rw [Tableau.value, Tableau.value, solver.tableau.form?_congr here]
          rw [if_pos here.symm, Option.map_map, value]
          refine congrArg (fun change => Option.map change _) (funext fun state => ?_)
          simp [here, Variable.refreshed]
        · simp [here, Ne.symm here]
  exact walk solver.stale solver.unknowns

theorem SameBooks.refresh (solver : Solver Rat) :
    SameBooks (fun _ => False) solver solver.refresh := by
  refine ⟨rfl, rfl, rfl, rfl, fun symbol => ?_, fun watched => ⟨?_, ?_⟩, fun _ impossible =>
    impossible.elim⟩
  · rw [get?_refresh, Option.map_map]
    refine congrArg (fun change => Option.map change _) (funext fun state => ?_)
    simp only [Function.comp_apply]
    split <;> rfl
  · intro symbol state found is_stale
    rw [get?_refresh] at found
    obtain ⟨before, was, rfl⟩ := Option.map_eq_some_iff.mp found
    split at is_stale
    · exact Bool.noConfusion is_stale
    · rename_i calm
      exact absurd (watched.queued symbol before was is_stale) calm
  · intro symbol state found calm busy
    rw [get?_refresh] at found
    obtain ⟨before, was, rfl⟩ := Option.map_eq_some_iff.mp found
    split at calm
    · rename_i waits
      rw [if_pos waits]
      rfl
    · rename_i idle
      rw [if_neg idle]
      exact watched.cached symbol before was calm busy

end Solver

end SoftSimplex
