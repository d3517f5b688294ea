import SoftSimplex.Proofs.Solver.Books
import SoftSimplex.Proofs.Tableau.Telling

/-!
# Marked caches

A solver is aware if it knows which of its caches are out of date: a marked variable waits for a
refresh, once, no other registered variable does, and the cache of a variable without a mark holds
its solved value. A solver is up to date if all caches hold solved values.

Taking over a tableau that tells of its changes leaves an aware solver aware, and refreshing it
brings it up to date. No law of arithmetic is assumed.
-/

namespace SoftSimplex.Solver

variable {α : Type} {kinds : Nat → Symbol.Kind} {solver between after : Solver α}
  {tableau : Tableau α}

/-- A registered variable waits once if it is marked, and otherwise it does not wait. -/
def Queued (solver : Solver α) : Prop :=
  ∀ symbol state, solver.unknowns.get? symbol = some state →
    (solver.stale.map Symbol.id).count symbol.id = if state.isStale then 1 else 0

theorem waits_iff_count_pos (solver : Solver α) (id : Nat) :
    solver.Waits id ↔ 0 < (solver.stale.map Symbol.id).count id := by
  rw [List.count_pos_iff, List.mem_map]
  rfl

theorem Queued.waits_iff (queued : solver.Queued) {symbol : Symbol} {state : Variable α}
    (found : solver.unknowns.get? symbol = some state) :
    solver.Waits symbol.id ↔ state.isStale = true := by
  rw [waits_iff_count_pos, queued symbol state found]
  cases state.isStale <;> simp

theorem Queued.markStale (queued : solver.Queued) (symbol : Symbol) :
    (solver.markStale symbol).Queued := by
  intro sought state there
  rw [get?_markStale] at there
  obtain ⟨before, was, rfl⟩ := Option.map_eq_some_iff.mp there
  have count := queued sought before was
  unfold Solver.markStale
  cases found : solver.unknowns.get? symbol with
  | none =>
      have apart : sought.id ≠ symbol.id := by
        intro same
        rw [solver.unknowns.get?_congr same, found] at was
        exact Option.some_ne_none before was.symm
      simpa [apart] using count
  | some marked =>
      by_cases same : sought.id = symbol.id
      · rw [solver.unknowns.get?_congr same, found] at was
        obtain rfl := Option.some.inj was
        cases stale : marked.isStale <;> simp_all
      · cases stale : marked.isStale <;> simp [stale, same, Ne.symm same, count]

theorem Queued.foldl_markStale (queued : solver.Queued) (symbols : List Symbol) :
    (symbols.foldl Solver.markStale solver).Queued := by
  induction symbols generalizing solver with
  | nil => exact queued
  | cons first rest inductionHypothesis => exact inductionHypothesis (queued.markStale first)

variable [Scalar α]

/-- The queue holds the marked variables, and the caches of all others hold their solved values. -/
structure Aware (solver : Solver α) : Prop where
  queued : solver.Queued
  cached : ∀ symbol state, solver.unknowns.get? symbol = some state → state.isStale = false →
    state.value = solver.tableau.value symbol

/-- Every cache holds the solved value. -/
def UpToDate (solver : Solver α) : Prop :=
  ∀ symbol state, solver.unknowns.get? symbol = some state →
    state.value = solver.tableau.value symbol

/-- Every variable was there before, with the same cache and the same mark, and no solved value has
changed. -/
structure SameCaches (solver after : Solver α) : Prop where
  unknowns : ∀ symbol state, after.unknowns.get? symbol = some state → ∃ before,
    solver.unknowns.get? symbol = some before ∧ state.isStale = before.isStale ∧
      state.value = before.value
  stale : after.stale = solver.stale
  values : ∀ symbol, after.tableau.value symbol = solver.tableau.value symbol

theorem SameCaches.of_eq (unknowns : after.unknowns = solver.unknowns)
    (stale : after.stale = solver.stale)
    (values : ∀ symbol, after.tableau.value symbol = solver.tableau.value symbol) :
    SameCaches solver after := by
  refine ⟨fun symbol state found => ?_, stale, values⟩
  rw [unknowns] at found
  exact ⟨state, found, rfl, rfl⟩

theorem SameCaches.with_symbols (solver : Solver α) (symbols : SymbolSupply) :
    SameCaches solver { solver with symbols } :=
  .of_eq rfl rfl fun _ => rfl

theorem SameCaches.aware (same : SameCaches solver after) (aware : solver.Aware) :
    after.Aware := by
  constructor
  · intro symbol state found
    obtain ⟨before, was, mark, _⟩ := same.unknowns symbol state found
    rw [same.stale, mark]
    exact aware.queued symbol before was
  · intro symbol state found calm
    obtain ⟨before, was, mark, value⟩ := same.unknowns symbol state found
    rw [value, same.values]
    exact aware.cached symbol before was (mark.symm.trans calm)

theorem SameCaches.upToDate (same : SameCaches solver after) (current : solver.UpToDate) :
    after.UpToDate := by
  intro symbol state found
  obtain ⟨before, was, _, value⟩ := same.unknowns symbol state found
  rw [value, same.values]
  exact current symbol before was

/-- A change of a variable that spares its cache and its mark. -/
theorem SameCaches.modify_unknown (solver : Solver α) (symbol : Symbol)
    (change : Variable α → Variable α) (spares : ∀ state, (change state).isStale = state.isStale ∧
      (change state).value = state.value) :
    SameCaches solver { solver with unknowns := solver.unknowns.modify symbol change } := by
  constructor
  · intro sought state found
    rcases Catalog.of_get?_modify found with ⟨_, before, was, rfl⟩ | ⟨_, was⟩
    · exact ⟨before, was, spares before⟩
    · exact ⟨state, was, rfl, rfl⟩
  · rfl
  · exact fun _ => rfl

theorem SameCaches.erase_unknown (solver : Solver α) (symbol : Symbol) :
    SameCaches solver { solver with unknowns := solver.unknowns.erase symbol } := by
  constructor
  · exact fun sought state found => ⟨state, (Catalog.of_get?_erase found).2, rfl, rfl⟩
  · rfl
  · exact fun _ => rfl

theorem SameCaches.forget_edits (solver : Solver α) :
    SameCaches solver { solver with unknowns :=
      (solver.unknowns.pass [] fun edits state =>
        ({ state with edit := none }, edits ++ state.edit.toList)).1 } := by
  refine ⟨fun symbol state found => ?_, rfl, fun _ => rfl⟩
  have passed := solver.unknowns.get?_pass []
    (fun edits state => ({ state with edit := none }, edits ++ state.edit.toList))
    (fun state => { state with edit := none }) (fun _ _ => rfl) symbol
  obtain ⟨before, was, rfl⟩ := Option.map_eq_some_iff.mp (passed.symm.trans found)
  exact ⟨before, was, rfl, rfl⟩

/-- Taking over a tableau that tells of its changes. -/
theorem Aware.adopt (aware : solver.Aware)
    (registered : ∀ symbol state, solver.unknowns.get? symbol = some state →
      symbol.id ≠ 0 ∧ kinds symbol.id = .external)
    (reports : solver.tableau.Reports kinds tableau) : (solver.adopt tableau).Aware := by
  have marked := solver.marked_adopt tableau
  constructor
  · rw [adopt_eq]
    apply Queued.foldl_markStale
    exact aware.queued
  · intro symbol state found calm
    rw [marked.unknowns] at found
    obtain ⟨before, was, rfl⟩ := Option.map_eq_some_iff.mp found
    rw [adopt_tableau]
    split at calm
    · exact Bool.noConfusion calm
    · rename_i unmarked
      rw [if_neg unmarked, aware.cached symbol before was calm]
      obtain ⟨proper, external⟩ := registered symbol before was
      rcases reports.told symbol proper external with unmoved | ⟨noted, member, named⟩
      · exact unmoved.symm
      · exact absurd ⟨noted, List.mem_reverse.mpr member, named⟩ unmarked

theorem Aware.upToDate_refresh (aware : solver.Aware) : solver.refresh.UpToDate := by
  intro symbol state found
  rw [get?_refresh] at found
  obtain ⟨before, was, rfl⟩ := Option.map_eq_some_iff.mp found
  split
  · rfl
  · rename_i idle
    apply aware.cached symbol before was
    rw [aware.queued.waits_iff was] at idle
    simpa using idle

theorem Aware.refresh (aware : solver.Aware) : solver.refresh.Aware := by
  constructor
  · intro symbol state found
    rw [get?_refresh] at found
    obtain ⟨before, was, rfl⟩ := Option.map_eq_some_iff.mp found
    split
    · rfl
    · rename_i idle
      rw [aware.queued.waits_iff was] at idle
      simp [idle]
  · intro symbol state found _
    exact aware.upToDate_refresh symbol state found

theorem Aware.new (identity : Nat) (options : Options) :
    (Solver.new identity options : Solver α).Aware := by
  constructor <;> simp [Queued, Solver.new]

theorem UpToDate.new (identity : Nat) (options : Options) :
    (Solver.new identity options : Solver α).UpToDate := by
  simp [UpToDate, Solver.new]

/-- The solver knows its caches as well as before. -/
structure Tracks (solver after : Solver α) : Prop where
  autoUpdate : after.autoUpdate = solver.autoUpdate
  aware : solver.Aware → after.Aware

/-- What is more, if caches are refreshed without being asked for, they are up to date if they were
before. -/
structure Follows (solver after : Solver α) : Prop extends Tracks solver after where
  prompt : solver.autoUpdate = true → solver.Aware → solver.UpToDate → after.UpToDate

theorem Tracks.refl (solver : Solver α) : Tracks solver solver := ⟨rfl, id⟩

theorem Tracks.trans (tracks : Tracks solver between) (tracks' : Tracks between after) :
    Tracks solver after :=
  ⟨tracks'.autoUpdate.trans tracks.autoUpdate, tracks'.aware ∘ tracks.aware⟩

theorem Tracks.refresh (solver : Solver α) : Tracks solver solver.refresh :=
  ⟨rfl, Aware.refresh⟩

theorem Follows.refresh (solver : Solver α) : Follows solver solver.refresh :=
  ⟨Tracks.refresh solver, fun _ aware _ => aware.upToDate_refresh⟩

theorem Follows.refl (solver : Solver α) : Follows solver solver :=
  ⟨Tracks.refl solver, fun _ _ => id⟩

theorem Follows.trans (follows : Follows solver between) (follows' : Follows between after) :
    Follows solver after := by
  constructor
  · exact follows.toTracks.trans follows'.toTracks
  · intro automatic aware current
    exact follows'.prompt (follows.autoUpdate.trans automatic) (follows.aware aware)
      (follows.prompt automatic aware current)

theorem SameCaches.follows (same : SameCaches solver after)
    (autoUpdate : after.autoUpdate = solver.autoUpdate) : Follows solver after :=
  ⟨⟨autoUpdate, same.aware⟩, fun _ _ => same.upToDate⟩

theorem Tracks.with_symbols (tracks : Tracks solver after) (symbols : SymbolSupply) :
    Tracks solver { after with symbols } :=
  ⟨tracks.autoUpdate, fun aware => (SameCaches.with_symbols after symbols).aware
    (tracks.aware aware)⟩

theorem Follows.with_symbols (follows : Follows solver after) (symbols : SymbolSupply) :
    Follows solver { after with symbols } :=
  ⟨follows.toTracks.with_symbols symbols, fun automatic aware current =>
    (SameCaches.with_symbols after symbols).upToDate (follows.prompt automatic aware current)⟩

/-- Marked variables wait for a refresh, which they need not have waited for. -/
theorem Follows.foldl_markStale (solver : Solver α) (symbols : List Symbol) :
    Follows solver (symbols.foldl markStale solver) := by
  have marked := marked_foldl symbols solver
  have caches : ∀ sought state, (symbols.foldl markStale solver).unknowns.get? sought = some state →
      ∃ before, solver.unknowns.get? sought = some before ∧ state.value = before.value ∧
        (state.isStale = false → before.isStale = false) := by
    intro sought state found
    rw [marked.unknowns] at found
    obtain ⟨before, was, rfl⟩ := Option.map_eq_some_iff.mp found
    refine ⟨before, was, ?_⟩
    split
    · exact ⟨rfl, fun calm => Bool.noConfusion calm⟩
    · exact ⟨rfl, id⟩
  have same : (symbols.foldl markStale solver).tableau = solver.tableau := by rw [marked.rest]
  constructor
  · constructor
    · rw [marked.rest]
    · refine fun aware => ⟨aware.queued.foldl_markStale symbols, fun sought state found calm => ?_⟩
      obtain ⟨before, was, value, unmarked⟩ := caches sought state found
      rw [value, same, aware.cached sought before was (unmarked calm)]
  · intro _ _ current sought state found
    obtain ⟨before, was, value, _⟩ := caches sought state found
    rw [value, same, current sought before was]

/-- A change that ends with a refresh if caches are refreshed without being asked for. -/
structure Renews (solver after : Solver α) : Prop extends Tracks solver after where
  renewed : solver.autoUpdate = true → solver.Aware → after.UpToDate

theorem Renews.follows (renews : Renews solver after) : Follows solver after :=
  ⟨renews.toTracks, fun automatic aware _ => renews.renewed automatic aware⟩

theorem Tracks.renews (tracks : Tracks solver between) (renews : Renews between after) :
    Renews solver after := by
  constructor
  · exact tracks.trans renews.toTracks
  · intro automatic aware
    exact renews.renewed (tracks.autoUpdate.trans automatic) (tracks.aware aware)

theorem Renews.refreshIfAutomatic (solver : Solver α) :
    Renews solver (if solver.autoUpdate then solver.refresh else solver) := by
  constructor
  · split
    · exact Tracks.refresh solver
    · exact Tracks.refl solver
  · intro automatic aware
    rw [if_pos automatic]
    exact aware.upToDate_refresh

/-- What a refused change leaves behind. It may have moved solved values only if the refusal came
after pivoting. -/
structure Recoils (solver : Solver α) (reason : Refusal) (after : Solver α) : Prop
    extends Tracks solver after where
  unmoved : reason ≠ .unbound → Follows solver after

theorem Follows.recoils (follows : Follows solver after) (reason : Refusal) :
    Recoils solver reason after :=
  ⟨follows.toTracks, fun _ => follows⟩

theorem Recoils.then_follows {reason : Refusal} (recoils : Recoils solver reason between)
    (follows : Follows between after) : Recoils solver reason after :=
  ⟨recoils.toTracks.trans follows.toTracks, fun calm => (recoils.unmoved calm).trans follows⟩

theorem Follows.then_recoils (follows : Follows solver between) {reason : Refusal}
    (recoils : Recoils between reason after) : Recoils solver reason after :=
  ⟨follows.toTracks.trans recoils.toTracks, fun calm => follows.trans (recoils.unmoved calm)⟩

end SoftSimplex.Solver
