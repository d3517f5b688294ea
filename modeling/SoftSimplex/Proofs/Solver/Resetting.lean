import SoftSimplex.Proofs.Solver.Edits

/-!
# The solver as a whole

Refreshing all caches, letting go of all edits at once, and emptying the tableau. An emptied
tableau stands for the empty ledger, whatever it stood for before, so resetting takes even required
equalities out without leaving anything behind.
-/

namespace SoftSimplex

variable {discipline : Discipline} {kinds : Nat → Symbol.Kind} {offset : Nat → Rat}
  {solver between after : Solver Rat} {issued : Nat → Prop} {symbol key : Symbol}

namespace Solver

theorem Standing.refresh (standing : solver.Standing discipline kinds offset) :
    solver.refresh.Standing discipline kinds offset := by
  have same := SameBooks.refresh solver
  have worked : Worked kinds (fun _ => False) (solver.constraints.ledger offset)
      (solver.constraints.ledger offset) solver solver.refresh :=
    ⟨same, rfl, same.registers standing.registers, standing.stands, standing.untouched⟩
  exact standing.toCatalogued.standing standing.watched worked (List.Perm.refl _) standing.restful

theorem Sound.refresh (sound : solver.Settled discipline issued) :
    solver.refresh.Settled discipline issued := by
  obtain ⟨kinds, offset, standing, editing⟩ := sound
  exact ⟨kinds, offset, standing.refresh, editing.unchanged (SameBooks.refresh solver).framed⟩

theorem edits_refresh_iff (solver : Solver Rat) (symbol key : Symbol) (target : Rat) :
    solver.refresh.Edits symbol key target ↔ solver.Edits symbol key target :=
  edits_congr (aim_congr ((SameBooks.refresh solver).outline symbol)) key target

/-- Whether values are refreshed without being asked for makes no difference here. -/
theorem Sound.with_autoUpdate (sound : solver.Settled discipline issued) (autoUpdate : Bool) :
    ({ solver with autoUpdate } : Solver Rat).Settled discipline issued := by
  obtain ⟨kinds, offset, standing, editing⟩ := sound
  refine ⟨kinds, offset, standing.rebooked { solver with autoUpdate } rfl rfl rfl
    (fun symbol state found => ⟨state, found, rfl, rfl⟩) (fun _ _ _ => Iff.rfl)
    fun key constraint found => ⟨standing.key_below key constraint found,
      standing.toCatalogued.dormant found⟩, ?_⟩
  exact ⟨editing.pulled, editing.loosened, editing.settled, editing.issued_below, editing.claimed⟩

section Edited

variable {α : Type}

/-- The keys of the hidden constraints, in the order of the variables. -/
theorem pass_edits (unknowns : Catalog (Variable α)) :
    (unknowns.pass ([] : List Symbol) fun edits state =>
      ({ state with edit := none }, edits ++ state.edit.toList)).2 =
        unknowns.entries.flatMap fun entry => entry.2.edit.toList := by
  have walk : ∀ (entries : List (Symbol × Variable α)) (edits : List Symbol),
      (passEntries (fun edits _ state =>
        (({ state with edit := none } : Variable α), edits ++ state.edit.toList))
          entries edits).2 = edits ++ entries.flatMap fun entry => entry.2.edit.toList := by
    intro entries
    induction entries with
    | nil => exact fun edits => (List.append_nil edits).symm
    | cons first rest inductionHypothesis =>
        intro edits
        simp only [passEntries, inductionHypothesis, List.flatMap_cons, List.append_assoc]
  exact (congrArg Prod.snd (unknowns.pass_eq [] _)).trans (walk unknowns.entries [])

/-- The keys of the hidden constraints of all edited variables. -/
def edits (solver : Solver α) : List Symbol :=
  solver.unknowns.entries.flatMap fun entry => entry.2.edit.toList

theorem mem_edits_iff_exists (solver : Solver α) (key : Symbol) :
    key ∈ solver.edits ↔
      ∃ symbol state, solver.unknowns.get? symbol = some state ∧ state.edit = some key := by
  unfold edits
  rw [List.mem_flatMap]
  constructor
  · rintro ⟨entry, member, inside⟩
    have found : solver.unknowns.get? entry.1 = some entry.2 :=
      (Catalog.get?_eq_some_iff _ _ _).mpr ⟨entry, member, rfl, rfl⟩
    exact ⟨entry.1, entry.2, found, Option.mem_toList.mp inside⟩
  · rintro ⟨symbol, state, found, edit⟩
    obtain ⟨entry, member, _, rfl⟩ := (Catalog.get?_eq_some_iff _ _ _).mp found
    exact ⟨entry, member, Option.mem_toList.mpr edit⟩

end Edited

theorem mem_edits_iff (solver : Solver Rat) (key : Symbol) :
    key ∈ solver.edits ↔ ∃ symbol target, solver.Edits symbol key target := by
  rw [mem_edits_iff_exists]
  constructor
  · rintro ⟨symbol, state, found, edit⟩
    exact ⟨symbol, state.target, state, found, edit, rfl⟩
  · rintro ⟨symbol, _, state, found, edit, _⟩
    exact ⟨symbol, state, found, edit⟩

/-- No key is listed twice, because no two variables share a hidden constraint. -/
theorem Editing.edits_apart {loose : Nat → Prop} (editing : solver.Editing issued loose offset)
    (registers : solver.Registers kinds) :
    solver.edits.Pairwise fun first second => first.id ≠ second.id := by
  have numbers := solver.unknowns.numbers_nodup
  rw [Catalog.listing, List.map_map, List.Nodup, List.pairwise_map] at numbers
  refine List.pairwise_flatMap.mpr ⟨fun entry _ => ?_, numbers.imp_of_mem ?_⟩
  · cases entry.2.edit with
    | none => exact List.Pairwise.nil
    | some key => exact List.pairwise_singleton _ key
  · intro first second member member' apart key inside key' inside' same
    have edits : ∀ entry ∈ solver.unknowns.entries, ∀ key ∈ entry.2.edit.toList,
        solver.Edits entry.1 key entry.2.target := fun entry member key inside =>
      ⟨entry.2, (Catalog.get?_eq_some_iff _ _ _).mpr ⟨entry, member, rfl, rfl⟩,
        Option.mem_toList.mp inside, rfl⟩
    exact apart (editing.unique registers (edits first member key inside)
      (edits second member' key' inside') same)

/-- The solver after all edits have been let go of. -/
def forgotten (solver : Solver Rat) : Solver Rat :=
  { solver with unknowns := (solver.unknowns.pass ([] : List Symbol) fun edits state =>
      ({ state with edit := none }, edits ++ state.edit.toList)).1 }

theorem get?_forgotten (solver : Solver Rat) (symbol : Symbol) :
    solver.forgotten.unknowns.get? symbol =
      (solver.unknowns.get? symbol).map fun state => { state with edit := none } :=
  Catalog.get?_pass solver.unknowns _ _ (fun state => { state with edit := none })
    (fun _ _ => rfl) symbol

theorem not_edits_forgotten (solver : Solver Rat) (symbol key : Symbol) (target : Rat) :
    ¬ solver.forgotten.Edits symbol key target := by
  rintro ⟨state, found, edit, _⟩
  rw [get?_forgotten] at found
  obtain ⟨_, _, rfl⟩ := Option.map_eq_some_iff.mp found
  exact Option.some_ne_none _ edit.symm

/-- The hidden constraints of all edits are loose. -/
theorem Sound.forgotten (sound : solver.Settled discipline issued) :
    solver.forgotten.Sound discipline issued fun id => ∃ key ∈ solver.edits, key.id = id := by
  obtain ⟨kinds, offset, standing, editing⟩ := sound
  refine ⟨kinds, offset, standing.with_unknowns _ fun symbol state found => ?_,
    editing.loosen standing.registers solver.forgotten (fun _ => True)
      (fun _ _ _ stays => absurd trivial stays)
      (fun symbol key target _ => solver.not_edits_forgotten symbol key target) rfl rfl
      fun id => ?_⟩
  · change solver.forgotten.unknowns.get? symbol = some state at found
    rw [get?_forgotten] at found
    obtain ⟨before, was, rfl⟩ := Option.map_eq_some_iff.mp found
    exact ⟨before, was, rfl, rfl⟩
  · simp only [mem_edits_iff, true_and]
    constructor
    · rintro ⟨key, ⟨symbol, target, edits⟩, named⟩
      exact Or.inr ⟨symbol, key, target, edits, named⟩
    · rintro (impossible | ⟨symbol, key, target, edits, named⟩)
      · exact impossible.elim
      · exact ⟨key, ⟨symbol, target, edits⟩, named⟩

/-- The solver with an empty tableau. -/
def emptied (solver : Solver Rat) : Solver Rat :=
  { solver with
    tableau := { solver.tableau with
      rows := solver.tableau.rows.clear
      objective := solver.tableau.objective.cleared
      agenda := { solver.tableau.agenda with repairs := [] } }
    constraints := (solver.constraints.pass () fun _ state =>
      ({ state with markers := Markers.absent }, ())).1 }

theorem get?_emptied (solver : Solver Rat) (key : Symbol) :
    solver.emptied.constraints.get? key =
      (solver.constraints.get? key).map fun state => { state with markers := Markers.absent } :=
  Catalog.get?_pass solver.constraints _ _ (fun state => { state with markers := Markers.absent })
    (fun _ _ => rfl) key

theorem equations_emptied (solver : Solver Rat) : solver.emptied.tableau.equations = [] := by
  simp [emptied, Tableau.equations, SlotTable.entries_clear]

theorem terms_emptied (solver : Solver Rat) : solver.emptied.tableau.objective.terms = [] :=
  SlotTable.entries_clear _

/-- An emptied tableau stands for nothing. -/
theorem stands_emptied (solver : Solver Rat) (kinds : Nat → Symbol.Kind) :
    solver.emptied.tableau.Stands kinds [] [] := by
  have no_rows : ∀ row, row ∉ solver.emptied.tableau.equations := by
    simp [equations_emptied]
  have no_entries : ∀ entry, entry ∉ solver.emptied.tableau.rows.entries := fun entry member =>
    no_rows _ (List.mem_map_of_mem member)
  have no_terms : ∀ term, term ∉ solver.emptied.tableau.objective.terms := by
    simp [terms_emptied]
  refine ⟨⟨fun row member => absurd member (no_rows row), fun row member =>
    absurd member (no_rows row), fun row member => absurd member (no_rows row),
    ⟨fun term member => absurd member (no_terms term), fun term member =>
      absurd member (no_terms term)⟩, fun term member => absurd member (no_terms term)⟩,
    ⟨fun _ member => absurd member List.not_mem_nil, fun entry member =>
      absurd member (no_entries entry)⟩, fun assignment => ⟨fun _ _ member =>
        absurd member List.not_mem_nil, fun _ row member => absurd member (no_rows row)⟩, 0,
    fun assignment _ => ?_⟩
  exact (LinearForm.eval_cleared _ assignment).trans (zero_add 0).symm

theorem restful_emptied (solver : Solver Rat) (discipline : Discipline) :
    solver.emptied.tableau.Restful discipline := by
  have no_rows : ∀ row, row ∉ solver.emptied.tableau.equations := by
    simp [equations_emptied]
  have no_terms : ∀ term, term ∉ solver.emptied.tableau.objective.terms := by
    simp [terms_emptied]
  exact ⟨⟨fun _ row member => absurd member (no_rows row), fun _ _ row member =>
    absurd member (no_rows row)⟩, rfl, fun _ _ term member => absurd member (no_terms term)⟩

theorem isActive_emptied {key : Symbol} {constraint : Constraint Rat}
    (found : solver.emptied.constraints.get? key = some constraint) :
    constraint.isActive = false := by
  rw [get?_emptied] at found
  obtain ⟨_, _, rfl⟩ := Option.map_eq_some_iff.mp found
  rfl

/-- Emptying the tableau takes all constraints out. -/
theorem Sound.emptied (sound : solver.Settled discipline issued)
    (unedited : ∀ symbol key target, ¬ solver.Edits symbol key target) :
    solver.emptied.Settled discipline issued := by
  obtain ⟨kinds, offset, standing, editing⟩ := sound
  have no_ledger : solver.emptied.constraints.ledger offset = [] := by
    refine List.eq_nil_iff_forall_not_mem.mpr fun entry member => ?_
    obtain ⟨key, constraint, found, active, _⟩ := (Catalog.mem_ledger_iff _ _ _).mp member
    rw [isActive_emptied found] at active
    exact Bool.noConfusion active
  refine ⟨kinds, offset, ⟨standing.toCatalogued.of_origin solver.emptied
    (fun symbol state found => ⟨state, found⟩) le_rfl (fun key constraint found => ?_) ?_, ?_,
      standing.untouched, solver.restful_emptied discipline, standing.watched.queued,
        fun symbol state _ _ busy => absurd (fun key constraint found active => ?_) busy⟩,
    fun symbol key target edits => absurd edits (unedited symbol key target), fun _ => False.elim,
      editing.settled, editing.issued_below, fun key constraint found => ?_⟩
  · rw [get?_emptied] at found
    obtain ⟨before, was, rfl⟩ := Option.map_eq_some_iff.mp found
    exact ⟨standing.key_below key before was, Or.inr ⟨rfl, standing.expression key before was,
      standing.reduced key before was, fun priced => standing.weights priced key before was⟩⟩
  · rw [no_ledger]
    exact .nil kinds
  · rw [no_ledger]
    exact solver.stands_emptied kinds
  · rw [isActive_emptied found] at active
    exact Bool.noConfusion active
  · rw [get?_emptied] at found
    obtain ⟨before, was, _⟩ := Option.map_eq_some_iff.mp found
    exact editing.claimed key before was

end Solver

namespace Action

open Solver

theorem leads_forgetEdits (solver : Solver Rat) : (forgetEdits : Action Rat _).Leads solver
    fun keys after => keys = solver.edits ∧ after = solver.forgotten :=
  Yields.read_bind (Yields.update_bind (Yields.pure ⟨pass_edits solver.unknowns, rfl⟩))

theorem leads_drop (sound : solver.Settled discipline issued) (dropConstraints : Bool) :
    (do
      let edits ← forgetEdits
      edits.forM removeConstraint
      refreshAll
      if dropConstraints then emptyTableau : Action Rat Unit).Leads solver fun _ after =>
        after.Settled discipline issued ∧ (∀ symbol key target, ¬ after.Edits symbol key target) ∧
          (dropConstraints = false → Spares issued solver after) := by
  obtain ⟨_, _, standing, editing⟩ := id sound
  refine Yields.bind (leads_forgetEdits solver) ?_
  rintro _ _ ⟨rfl, rfl⟩
  refine Yields.bind (leads_removeAll solver.edits (editing.edits_apart standing.registers)
    sound.forgotten) ?_
  rintro _ between ⟨settled, spares⟩
  have unedited : ∀ symbol key target, ¬ between.refresh.Edits symbol key target :=
    fun symbol key target edits => solver.not_edits_forgotten symbol key target
      (spares.edits symbol key target ((between.edits_refresh_iff symbol key target).mp edits))
  have spared : Spares issued solver between.refresh :=
    ⟨spares.identity, spares.lastConstraint, spares.autoUpdate, spares.constraints,
      fun symbol key target edits => absurd edits (unedited symbol key target)⟩
  refine Yields.update_bind ?_
  split
  · rename_i drops
    have emptied := settled.refresh.emptied unedited
    exact Yields.update (And.intro emptied (And.intro unedited fun keeps =>
      Bool.noConfusion (drops.symm.trans keeps)))
  · exact Yields.pure ⟨settled.refresh, unedited, fun _ => spared⟩

/-- Ending all edits, and emptying the tableau if asked to. -/
theorem leads_reset (sound : solver.Settled discipline issued) (dropConstraints : Bool) :
    (reset dropConstraints : Action Rat Unit).Leads solver fun _ after =>
      after.Settled discipline issued ∧ (∀ symbol key target, ¬ after.Edits symbol key target) ∧
        (dropConstraints = false → Spares issued solver after) := by
  refine Yields.read_bind ?_
  dsimp only
  split
  · refine Yields.update_bind (Yields.weaken (leads_drop sound.refresh dropConstraints) ?_)
    rintro _ after ⟨settled, unedited, spares⟩
    exact ⟨settled, unedited, fun keeps =>
      (((SameBooks.refresh solver).framed.spares fun _ _ => id).trans (spares keeps))⟩
  · exact leads_drop sound dropConstraints

end Action

end SoftSimplex
