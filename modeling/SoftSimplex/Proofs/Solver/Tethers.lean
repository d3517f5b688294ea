import SoftSimplex.Proofs.Solver.Tally

/-!
# Tethers

The hidden constraint of an edited variable tethers it: it takes part, may be missed, and mentions
the variable alone. Hidden constraints and those that callers know are told apart by their numbers.
Some numbers stand apart, so that no hidden constraint bears one of them, and every constraint that
is not hidden has been placed. Between commands both are the numbers that were handed out.

A tether mentions its variable. So the last reference to a variable does not go while the variable
is edited.
-/

namespace SoftSimplex

variable {α : Type} [Scalar α] {capped : Prop} {apart apart' placed placed' : Nat → Prop}
  {deals : List Deal} {owed : Nat → Int} {solver after : Solver α} {key symbol : Symbol}
  {constraint other : Constraint α} {id : Nat}

/-- A live constraint that pulls the variable with a number toward a target and may be missed. If
strengths are capped, it is not above strong. -/
structure Constraint.Tethers (capped : Prop) (id : Nat) (constraint : Constraint α) : Prop where
  active : constraint.isActive = true
  relation : constraint.relation = some .equal
  soft : constraint.strength.isRequired = false
  weight : capped → constraint.strength.weight ≤ (Strength.strong : Strength α).weight
  alone : constraint.expression.terms = [(⟨id, .external⟩, 1)]

theorem Constraint.Tethers.occurrences (tethers : constraint.Tethers capped id) :
    constraint.expression.occurrences id = 1 := by
  have member : (⟨id, .external⟩, 1) ∈ constraint.expression.terms := by
    rw [tethers.alone]
    exact List.mem_singleton_self _
  exact constraint.expression.occurrences_of_mem member

/-- A constraint tethers one variable only. -/
theorem Constraint.Tethers.unique {id' : Nat} (tethers : constraint.Tethers capped id)
    (tethers' : constraint.Tethers capped id') : id = id' := by
  have same := tethers.alone.symm.trans tethers'.alone
  simpa using same

namespace Solver

/-- The variable is edited, and its hidden constraint is under the key. -/
def PulledBy (solver : Solver α) (symbol key : Symbol) : Prop :=
  ∃ state, solver.unknowns.get? symbol = some state ∧ state.edit = some key

omit [Scalar α] in
theorem pulledBy_iff (solver : Solver α) (symbol key : Symbol) :
    solver.PulledBy symbol key ↔
      (solver.unknowns.get? symbol).map Variable.edit = some (some key) := by
  rw [Option.map_eq_some_iff]
  rfl

omit [Scalar α] in
theorem pulledBy_congr (same : (after.unknowns.get? symbol).map Variable.edit =
      (solver.unknowns.get? symbol).map Variable.edit) (key : Symbol) :
    after.PulledBy symbol key ↔ solver.PulledBy symbol key := by
  rw [pulledBy_iff, pulledBy_iff, same]

omit [Scalar α] in
/-- When the edit of a variable has begun, its hidden constraint is the last one. -/
theorem Begun.pulledBy_same {pull : Constraint α} {target : α} {sought : Symbol}
    (begun : Begun symbol pull target solver after) (registered : solver.Knows symbol)
    (same : sought.id = symbol.id) (edit : Symbol) :
    after.PulledBy sought edit ↔ edit = ⟨solver.lastConstraint + 1, .external⟩ := by
  obtain ⟨state, found⟩ := registered
  have edits := congrArg (Option.map fun outline : Nat × Option Symbol × α => outline.2.1)
    (begun.outline sought)
  rw [if_pos same, solver.unknowns.get?_congr same, found, Option.map_map] at edits
  rw [pulledBy_iff, show Variable.edit = (fun outline : Nat × Option Symbol × α =>
    outline.2.1) ∘ Variable.outline (α := α) from rfl, edits]
  simp [eq_comm]

omit [Scalar α] in
theorem Begun.pulledBy_apart {pull : Constraint α} {target : α} {sought : Symbol}
    (begun : Begun symbol pull target solver after) (apart : sought.id ≠ symbol.id)
    (edit : Symbol) : after.PulledBy sought edit ↔ solver.PulledBy sought edit := by
  have edits := congrArg (Option.map fun outline : Nat × Option Symbol × α => outline.2.1)
    (begun.outline sought)
  rw [if_neg apart, Option.map_map, Option.map_map] at edits
  exact pulledBy_congr edits edit

/-- Every edited variable is tethered by its hidden constraint, whose number does not stand apart,
and a constraint has been placed unless it is hidden. -/
structure Tethered (capped : Prop) (apart placed : Nat → Prop) (solver : Solver α) : Prop where
  held : ∀ symbol key, solver.PulledBy symbol key → ¬ apart key.id ∧ ∃ constraint,
    solver.constraints.get? key = some constraint ∧ constraint.Tethers capped symbol.id
  claimed : ∀ key constraint, solver.constraints.get? key = some constraint →
    placed key.id ∨ ∃ symbol edit, solver.PulledBy symbol edit ∧ edit.id = key.id
  below : ∀ key constraint, solver.constraints.get? key = some constraint →
    key.id ≤ solver.lastConstraint
  apart_below : ∀ id, apart id → id ≤ solver.lastConstraint

theorem Tethered.new (capped : Prop) (placed : Nat → Prop) (identity : Nat) (options : Options) :
    (Solver.new identity options : Solver α).Tethered capped (fun _ => False) placed := by
  have none_yet : ∀ key, (Solver.new identity options : Solver α).constraints.get? key = none :=
    Catalog.get?_new options.pageSize
  constructor
  · rintro symbol key ⟨state, found, _⟩
    rw [Solver.new, Catalog.get?_new] at found
    exact absurd found.symm (Option.some_ne_none state)
  · exact fun key constraint found => absurd (none_yet key ▸ found) (by simp)
  · exact fun key constraint found => absurd (none_yet key ▸ found) (by simp)
  · exact fun _ => False.elim

namespace Tethered

variable (tethered : solver.Tethered capped apart placed)

include tethered

theorem key_below (pulled : solver.PulledBy symbol key) : key.id ≤ solver.lastConstraint := by
  obtain ⟨_, constraint, found, _⟩ := tethered.held symbol key pulled
  exact tethered.below key constraint found

/-- No two variables share a hidden constraint. -/
theorem unique {symbol' key' : Symbol} (pulled : solver.PulledBy symbol key)
    (pulled' : solver.PulledBy symbol' key') (same : key.id = key'.id) :
    symbol.id = symbol'.id := by
  obtain ⟨_, constraint, found, tethers⟩ := tethered.held symbol key pulled
  obtain ⟨_, constraint', found', tethers'⟩ := tethered.held symbol' key' pulled'
  rw [solver.constraints.get?_congr same, found'] at found
  obtain rfl := Option.some.inj found
  exact tethers.unique tethers'

/-- An edited variable is mentioned. -/
theorem mentioned (pulled : solver.PulledBy symbol key) :
    solver.constraints.mentioning symbol.id ≠ 0 := by
  obtain ⟨_, constraint, found, tethers⟩ := tethered.held symbol key pulled
  have counts := solver.constraints.occurrencesAt_le_mentioning key symbol.id
  rw [Catalog.occurrencesAt_of_found found, tethers.occurrences] at counts
  omega

/-- Edits may end, and numbers may be told apart otherwise, as long as the constraints stay. -/
theorem relabel
    (constraints : ∀ sought, after.constraints.get? sought = solver.constraints.get? sought)
    (last : after.lastConstraint = solver.lastConstraint)
    (fewer : ∀ symbol key, after.PulledBy symbol key →
      solver.PulledBy symbol key ∧ ¬ apart' key.id)
    (claims : ∀ symbol key, solver.PulledBy symbol key →
      placed' key.id ∨ after.PulledBy symbol key)
    (wider : ∀ key constraint, solver.constraints.get? key = some constraint →
      placed key.id → placed' key.id)
    (apart_below : ∀ id, apart' id → id ≤ solver.lastConstraint) :
    after.Tethered capped apart' placed' := by
  constructor
  · intro symbol key pulled
    obtain ⟨was_pulled, hidden⟩ := fewer symbol key pulled
    rw [constraints]
    exact ⟨hidden, (tethered.held symbol key was_pulled).2⟩
  · intro key constraint found
    rw [constraints] at found
    rcases tethered.claimed key constraint found with is_placed | ⟨symbol, edit, pulled, same⟩
    · exact Or.inl (wider key constraint found is_placed)
    · rcases claims symbol edit pulled with is_placed | still
      · exact Or.inl (same ▸ is_placed)
      · exact Or.inr ⟨symbol, edit, still, same⟩
  · intro key constraint found
    rw [constraints] at found
    exact last ▸ tethered.below key constraint found
  · exact fun id stands => last ▸ apart_below id stands

/-- Fewer constraints may stand apart, and more may be placed. -/
theorem mono (within : ∀ id, apart' id → apart id)
    (wider : ∀ key constraint, solver.constraints.get? key = some constraint →
      placed key.id → placed' key.id) : solver.Tethered capped apart' placed' :=
  tethered.relabel (fun _ => rfl) rfl
    (fun symbol key pulled => ⟨pulled, fun stands =>
      (tethered.held symbol key pulled).1 (within _ stands)⟩)
    (fun _ _ => Or.inr) wider fun id stands => tethered.apart_below id (within id stands)

/-- Edits and constraints may stay while the rest changes. -/
theorem of_edits
    (edits : ∀ symbol edit, after.PulledBy symbol edit ↔ solver.PulledBy symbol edit)
    (constraints : ∀ sought, after.constraints.get? sought = solver.constraints.get? sought)
    (last : after.lastConstraint = solver.lastConstraint) : after.Tethered capped apart placed := by
  apply tethered.relabel constraints last
  · intro symbol edit pulled
    rw [edits] at pulled
    exact ⟨pulled, (tethered.held symbol edit pulled).1⟩
  · exact fun symbol edit pulled => Or.inr ((edits symbol edit).mpr pulled)
  · exact fun _ _ _ => id
  · exact tethered.apart_below

/-- The next number is free. -/
theorem unwritten : solver.constraints.get? ⟨solver.lastConstraint + 1, .external⟩ = none := by
  rw [Option.eq_none_iff_forall_ne_some]
  exact fun constraint found => absurd (tethered.below _ constraint found) (Nat.not_succ_le_self _)

/-- A single constraint may change, as long as it does not come anew and keeps tethering the
variable that it tethers. -/
theorem exchange (key : Symbol)
    (edits : ∀ symbol edit, after.PulledBy symbol edit ↔ solver.PulledBy symbol edit)
    (elsewhere : ∀ sought : Symbol, sought.id ≠ key.id →
      after.constraints.get? sought = solver.constraints.get? sought)
    (last : after.lastConstraint = solver.lastConstraint)
    (registered : ∀ constraint, after.constraints.get? key = some constraint →
      ∃ before, solver.constraints.get? key = some before)
    (tight : ∀ symbol edit, solver.PulledBy symbol edit → edit.id = key.id → ∃ constraint,
      after.constraints.get? key = some constraint ∧ constraint.Tethers capped symbol.id) :
    after.Tethered capped apart placed := by
  have was : ∀ sought constraint, after.constraints.get? sought = some constraint →
      ∃ before, solver.constraints.get? sought = some before := by
    intro sought constraint found
    by_cases same : sought.id = key.id
    · rw [solver.constraints.get?_congr same]
      rw [after.constraints.get?_congr same] at found
      exact registered constraint found
    · rw [elsewhere sought same] at found
      exact ⟨constraint, found⟩
  constructor
  · intro symbol edit pulled
    rw [edits] at pulled
    obtain ⟨hidden, constraint, found, tethers⟩ := tethered.held symbol edit pulled
    refine ⟨hidden, ?_⟩
    by_cases same : edit.id = key.id
    · rw [after.constraints.get?_congr same]
      exact tight symbol edit pulled same
    · rw [elsewhere edit same]
      exact ⟨constraint, found, tethers⟩
  · intro sought constraint found
    obtain ⟨before, there⟩ := was sought constraint found
    apply (tethered.claimed sought before there).imp_right
    rintro ⟨symbol, edit, pulled, same⟩
    exact ⟨symbol, edit, (edits symbol edit).mpr pulled, same⟩
  · intro sought constraint found
    obtain ⟨before, there⟩ := was sought constraint found
    exact last ▸ tethered.below sought before there
  · exact fun id stands => last ▸ tethered.apart_below id stands

/-- A constraint is created with a new number. -/
theorem create
    (edits : ∀ symbol edit, after.PulledBy symbol edit ↔ solver.PulledBy symbol edit)
    (last : after.lastConstraint = solver.lastConstraint + 1)
    (elsewhere : ∀ sought : Symbol, sought.id ≠ solver.lastConstraint + 1 →
      after.constraints.get? sought = solver.constraints.get? sought) :
    after.Tethered capped (fun id => id = solver.lastConstraint + 1 ∨ apart id)
      (fun id => id = solver.lastConstraint + 1 ∨ placed id) := by
  constructor
  · intro symbol key pulled
    rw [edits] at pulled
    obtain ⟨hidden, constraint, found, tethers⟩ := tethered.held symbol key pulled
    have low := tethered.below key constraint found
    have old : key.id ≠ solver.lastConstraint + 1 := by omega
    rw [elsewhere key old]
    exact ⟨not_or_intro old hidden, constraint, found, tethers⟩
  · intro key constraint found
    by_cases new : key.id = solver.lastConstraint + 1
    · exact Or.inl (Or.inl new)
    · rw [elsewhere key new] at found
      rcases tethered.claimed key constraint found with is_placed | ⟨symbol, edit, pulled, same⟩
      · exact Or.inl (Or.inr is_placed)
      · exact Or.inr ⟨symbol, edit, (edits symbol edit).mpr pulled, same⟩
  · intro key constraint found
    rw [last]
    by_cases new : key.id = solver.lastConstraint + 1
    · exact new.le
    · rw [elsewhere key new] at found
      exact (tethered.below key constraint found).trans (Nat.le_succ _)
  · rintro id (new | stands)
    · exact (new.trans last.symm).le
    · rw [last]
      exact (tethered.apart_below id stands).trans (Nat.le_succ _)

/-- The edit of a variable that was not edited begins. -/
theorem begin {pull : Constraint α} {target : α}
    (registered : solver.Knows symbol) (unedited : ∀ key, ¬ solver.PulledBy symbol key)
    (tethers : ∀ constraint : Constraint α, constraint.unmarked = pull →
      constraint.isActive = true → constraint.Tethers capped symbol.id)
    (begun : Begun symbol pull target solver after) : after.Tethered capped apart placed := by
  obtain ⟨constraint, found, is_pull, active⟩ := begun.hidden
  constructor
  · intro sought edit pulled
    by_cases same : sought.id = symbol.id
    · obtain rfl := (begun.pulledBy_same registered same edit).mp pulled
      refine ⟨fun stands => ?_, constraint, found, same ▸ tethers constraint is_pull active⟩
      exact absurd (tethered.apart_below _ stands) (Nat.not_succ_le_self _)
    · rw [begun.pulledBy_apart same] at pulled
      obtain ⟨hidden, constraint, there, tethers⟩ := tethered.held sought edit pulled
      have low := tethered.below edit constraint there
      refine ⟨hidden, constraint, ?_, tethers⟩
      rw [begun.elsewhere edit (by omega)]
      exact there
  · intro sought constraint there
    by_cases new : sought.id = solver.lastConstraint + 1
    · exact Or.inr ⟨symbol, _, (begun.pulledBy_same registered rfl _).mpr rfl, new.symm⟩
    · rw [begun.elsewhere sought new] at there
      apply (tethered.claimed sought constraint there).imp_right
      rintro ⟨other, edit, pulled, same⟩
      refine ⟨other, edit, ?_, same⟩
      by_cases named : other.id = symbol.id
      · obtain ⟨state, was, edited⟩ := pulled
        rw [solver.unknowns.get?_congr named] at was
        exact absurd ⟨state, was, edited⟩ (unedited edit)
      · exact (begun.pulledBy_apart named edit).mpr pulled
  · intro sought constraint there
    rw [begun.lastConstraint]
    by_cases new : sought.id = solver.lastConstraint + 1
    · exact new.le
    · rw [begun.elsewhere sought new] at there
      exact (tethered.below sought constraint there).trans (Nat.le_succ _)
  · intro id stands
    rw [begun.lastConstraint]
    exact (tethered.apart_below id stands).trans (Nat.le_succ _)

end Tethered

/-! ## Tallied solvers -/

/-- References are counted, and edited variables are tethered. -/
structure Tallied (capped : Prop) (apart placed : Nat → Prop) (deals : List Deal)
    (owed : Nat → Int) (solver : Solver α) : Prop
    extends Counted deals owed solver, Tethered capped apart placed solver

/-- Variables are referred to and edited as before, and of the constraints at most one has
changed. -/
structure Alters (key : Symbol) (solver after : Solver α) : Prop where
  references : ∀ symbol, (after.unknowns.get? symbol).map Variable.references =
    (solver.unknowns.get? symbol).map Variable.references
  edits : ∀ symbol, (after.unknowns.get? symbol).map Variable.edit =
    (solver.unknowns.get? symbol).map Variable.edit
  elsewhere : ∀ sought : Symbol, sought.id ≠ key.id →
    after.constraints.get? sought = solver.constraints.get? sought
  lastConstraint : after.lastConstraint = solver.lastConstraint
  later : solver.symbols.last ≤ after.symbols.last

omit [Scalar α] in
theorem SameRecords.alters (same : SameRecords solver after)
    (elsewhere : ∀ sought : Symbol, sought.id ≠ key.id →
      after.constraints.get? sought = solver.constraints.get? sought)
    (later : solver.symbols.last ≤ after.symbols.last) : Alters key solver after := by
  have through : ∀ {β : Type} (part : Nat × Option Symbol × α → β) (symbol : Symbol),
      (after.unknowns.get? symbol).map (part ∘ Variable.outline) =
        (solver.unknowns.get? symbol).map (part ∘ Variable.outline) := by
    intro β part symbol
    rw [← Option.map_map, ← Option.map_map, same.outline]
  constructor
  · exact through fun outline => outline.1
  · exact through fun outline => outline.2.1
  · exact elsewhere
  · exact same.lastConstraint
  · exact later

omit [Scalar α] in
theorem Recast.alters (recast : Recast key solver after) : Alters key solver after :=
  recast.toSameRecords.alters recast.elsewhere recast.later

theorem Reworked.alters {mark : Nat} {inside : Nat → Prop}
    (reworked : Reworked kinds mark inside solver after) : Alters key solver after :=
  (reworked.recast key).alters

omit [Scalar α] in
/-- Only constraints have changed, and only one of them. -/
theorem Alters.of_constraints {constraints : Catalog (Constraint α)}
    (elsewhere : ∀ sought : Symbol, sought.id ≠ key.id →
      constraints.get? sought = solver.constraints.get? sought) :
    Alters key solver { solver with constraints } :=
  ⟨fun _ => rfl, fun _ => rfl, elsewhere, rfl, Nat.le_refl _⟩

omit [Scalar α] in
/-- A variable may change apart from its references and its edit. -/
theorem Alters.modify_unknown (solver : Solver α) (symbol key : Symbol)
    (change : Variable α → Variable α)
    (same : ∀ state, (change state).references = state.references ∧
      (change state).edit = state.edit) :
    Alters key solver { solver with unknowns := solver.unknowns.modify symbol change } := by
  constructor
  · exact fun sought => Catalog.map_get?_modify _ _ _ _ fun state => (same state).1
  · exact fun sought => Catalog.map_get?_modify _ _ _ _ fun state => (same state).2
  · exact fun _ _ => rfl
  · rfl
  · exact Nat.le_refl _

namespace Tallied

variable (tallied : solver.Tallied capped apart placed deals owed)

include tallied

theorem congr_owed {owed' : Nat → Int} (same : ∀ id, owed id = owed' id) :
    solver.Tallied capped apart placed deals owed' :=
  funext same ▸ tallied

theorem mono {apart' placed' : Nat → Prop} (within : ∀ id, apart' id → apart id)
    (wider : ∀ key constraint, solver.constraints.get? key = some constraint →
      placed key.id → placed' key.id) : solver.Tallied capped apart' placed' deals owed :=
  ⟨tallied.toCounted, tallied.toTethered.mono within wider⟩

/-- A constraint that stands apart tethers nothing, so it may change at will. -/
theorem alter (alters : Alters key solver after) (stands : apart key.id)
    (registered : ∀ constraint, after.constraints.get? key = some constraint →
      ∃ before, solver.constraints.get? key = some before)
    (spread : ∀ constraint, after.constraints.get? key = some constraint →
      constraint.expression.Over solver.Knows) :
    after.Tallied capped apart placed deals fun id => owed id +
      solver.constraints.occurrencesAt key id - after.constraints.occurrencesAt key id := by
  constructor
  · exact tallied.toCounted.exchange key alters.references alters.elsewhere spread alters.later
  · apply tallied.toTethered.exchange key (fun symbol => pulledBy_congr (alters.edits symbol))
      alters.elsewhere alters.lastConstraint registered
    intro symbol edit pulled same
    exact absurd (same ▸ stands) (tallied.held symbol edit pulled).1

/-- A constraint keeps its expression, and it stands apart or keeps its tether. -/
theorem keep (alters : Alters key solver after)
    (written : (after.constraints.get? key).map Constraint.expression =
      (solver.constraints.get? key).map Constraint.expression)
    (tight : ∀ symbol edit, solver.PulledBy symbol edit → edit.id = key.id → ∃ constraint,
      after.constraints.get? key = some constraint ∧ constraint.Tethers capped symbol.id) :
    after.Tallied capped apart placed deals owed := by
  constructor
  · exact tallied.toCounted.keep key alters.references alters.elsewhere written alters.later
  · apply tallied.toTethered.exchange key (fun symbol => pulledBy_congr (alters.edits symbol))
      alters.elsewhere alters.lastConstraint _ tight
    intro constraint found
    rw [found, Option.map_some] at written
    obtain ⟨before, there, _⟩ := Option.map_eq_some_iff.mp written.symm
    exact ⟨before, there⟩

theorem recast (recast : Recast key solver after) (stands : apart key.id) :
    after.Tallied capped apart placed deals owed := by
  apply tallied.keep recast.alters recast.written
  intro symbol edit pulled same
  exact absurd (same ▸ stands) (tallied.held symbol edit pulled).1

/-- Nothing is said about the tableau and the caches. -/
theorem of_same (alters : ∀ key, Alters key solver after)
    (constraints : ∀ sought, after.constraints.get? sought = solver.constraints.get? sought) :
    after.Tallied capped apart placed deals owed := by
  have none_changed := alters Symbol.null
  constructor
  · apply tallied.toCounted.keep Symbol.null none_changed.references none_changed.elsewhere _
      none_changed.later
    rw [constraints]
  · exact tallied.toTethered.of_edits (fun symbol => pulledBy_congr (none_changed.edits symbol))
      constraints none_changed.lastConstraint

theorem refresh : solver.refresh.Tallied capped apart placed deals owed :=
  tallied.of_same (fun _ => (SameRecords.refresh solver).alters (fun _ _ => rfl) (Nat.le_refl _))
    fun _ => rfl

/-- A change of the references to a variable. -/
theorem modify_unknown {state : Variable α} (change : Variable α → Variable α) (correction : Int)
    (found : solver.unknowns.get? symbol = some state)
    (corrected : ((change state).references : Int) = state.references + correction)
    (positive : 1 ≤ (change state).references)
    (edits : ∀ state, (change state).edit = state.edit) :
    ({ solver with unknowns := solver.unknowns.modify symbol change } : Solver α).Tallied capped
      apart placed deals (Function.update owed symbol.id (owed symbol.id + correction)) := by
  have pulled : ∀ sought edit,
      ({ solver with unknowns := solver.unknowns.modify symbol change } : Solver α).PulledBy sought
        edit ↔ solver.PulledBy sought edit := by
    intro sought
    apply pulledBy_congr
    exact Catalog.map_get?_modify _ _ _ _ edits
  constructor
  · exact tallied.toCounted.modify_unknown change correction found corrected positive
  · exact tallied.toTethered.of_edits pulled (fun _ => rfl) rfl

/-- The last reference goes, and with it the variable, which is not edited. -/
theorem erase_unknown {state : Variable α} (found : solver.unknowns.get? symbol = some state)
    (debt : owed symbol.id = 1) (last : state.references ≤ 1) :
    state.edit = none ∧ ({ solver with unknowns := solver.unknowns.erase symbol } :
      Solver α).Tallied capped apart placed deals (Function.update owed symbol.id 0) := by
  have unmentioned := (tallied.unmentioned_of_last found debt last).2
  have unedited : ∀ sought edit, sought.id = symbol.id → ¬ solver.PulledBy sought edit := by
    intro sought edit same pulled
    exact tallied.mentioned pulled (same ▸ unmentioned)
  refine ⟨?_, tallied.toCounted.erase_unknown found debt last, ?_⟩
  · cases edited : state.edit with
    | none => rfl
    | some edit => exact absurd ⟨state, found, edited⟩ (unedited symbol edit rfl)
  · apply tallied.toTethered.relabel
    · exact fun _ => rfl
    · rfl
    · rintro sought edit ⟨now, there, edited⟩
      have pulled : solver.PulledBy sought edit := ⟨now, (Catalog.of_get?_erase there).2, edited⟩
      exact ⟨pulled, (tallied.held sought edit pulled).1⟩
    · rintro sought edit ⟨now, there, edited⟩
      refine Or.inr ⟨now, ?_, edited⟩
      dsimp only
      rw [Catalog.get?_erase, if_neg]
      · exact there
      · exact fun same => unedited sought edit same ⟨now, there, edited⟩
    · exact fun _ _ _ => id
    · exact tallied.apart_below

/-- A registered constraint that stands apart is rewritten. -/
theorem rewrite {written : Constraint α} (stands : apart key.id)
    (found : solver.constraints.get? key = some constraint)
    (spread : written.expression.Over solver.Knows) :
    ({ solver with constraints := solver.constraints.modify key fun _ => written } :
      Solver α).Tallied capped apart placed deals fun id => owed id +
        constraint.expression.occurrences id - written.expression.occurrences id := by
  have replaced : (solver.constraints.modify key fun _ => written).get? key = some written := by
    rw [Catalog.get?_modify, if_pos rfl, found]
    rfl
  have alters : Alters key solver { solver with
      constraints := solver.constraints.modify key fun _ => written } := by
    apply Alters.of_constraints
    intro sought apart
    rw [Catalog.get?_modify, if_neg apart]
  apply (tallied.alter alters stands _ _).congr_owed
  · intro id
    rw [Catalog.occurrencesAt_of_found found, Catalog.occurrencesAt_of_found replaced]
  · exact fun _ _ => ⟨constraint, found⟩
  · intro now there
    obtain rfl := Option.some.inj (replaced.symm.trans there)
    exact spread

/-- Of a registered constraint that stands apart nothing is left but what its variables are owed. -/
theorem remove (stands : apart key.id) (found : solver.constraints.get? key = some constraint) :
    ({ solver with constraints := solver.constraints.erase key } : Solver α).Tallied capped apart
      (fun id => placed id ∧ id ≠ key.id) deals fun id =>
        owed id + constraint.expression.occurrences id := by
  have absent : (solver.constraints.erase key).get? key = none := by
    rw [Catalog.get?_erase, if_pos rfl]
  have alters : Alters key solver { solver with
      constraints := solver.constraints.erase key } := by
    apply Alters.of_constraints
    intro sought apart
    rw [Catalog.get?_erase, if_neg apart]
  have never : ∀ now, (solver.constraints.erase key).get? key ≠ some now := by
    intro now there
    exact Option.some_ne_none now (there.symm.trans absent)
  have altered := tallied.alter alters stands (fun now there => absurd there (never now))
    fun now there => absurd there (never now)
  apply (altered.congr_owed fun id => _).mono fun _ => id
  · intro sought now there is_placed
    refine ⟨is_placed, fun same => never now ?_⟩
    rw [← there]
    exact Catalog.get?_congr _ same.symm
  · intro id
    rw [Catalog.occurrencesAt_of_found found, Catalog.occurrencesAt_of_absent absent]
    simp

/-- A constraint that is not there has been removed. -/
theorem removed (absent : solver.constraints.get? key = none) :
    solver.Tallied capped apart (fun id => placed id ∧ id ≠ key.id) deals owed := by
  apply tallied.mono fun _ => id
  intro sought now there is_placed
  refine ⟨is_placed, fun same => ?_⟩
  rw [solver.constraints.get?_congr same, absent] at there
  exact Option.some_ne_none now there.symm

/-- A constraint with nothing written has been created. -/
theorem create (drafted : Drafted solver.unknowns constraint solver after)
    (blank : constraint.expression.terms = []) :
    after.Tallied capped (fun id => id = solver.lastConstraint + 1 ∨ apart id)
      (fun id => id = solver.lastConstraint + 1 ∨ placed id) deals owed := by
  have elsewhere : ∀ sought : Symbol, sought.id ≠ solver.lastConstraint + 1 →
      after.constraints.get? sought = solver.constraints.get? sought := by
    intro sought old
    rw [drafted.constraints, if_neg old]
  have same : after.unknowns = solver.unknowns := drafted.unknowns_eq
  constructor
  · apply (tallied.toCounted.exchange ⟨solver.lastConstraint + 1, .external⟩ _ elsewhere
      _ _).congr_owed
    · intro id
      rw [Catalog.occurrencesAt_of_absent tallied.unwritten,
        Catalog.occurrencesAt_of_found drafted.found, (constraint.expression.occurrences_eq_zero_iff id).mpr]
      · simp
      · rw [blank]
        exact fun _ member => absurd member List.not_mem_nil
    · exact fun symbol => by rw [same]
    · intro now there term member
      obtain rfl := Option.some.inj (drafted.found.symm.trans there)
      rw [blank] at member
      exact absurd member List.not_mem_nil
    · rw [drafted.symbols]
  · apply tallied.toTethered.create _ drafted.lastConstraint elsewhere
    intro symbol edit
    rw [PulledBy, PulledBy, same]

/-- The edit of a variable that was not edited begins. -/
theorem begin {pull : Constraint α} {target : α} (registered : solver.Knows symbol)
    (unedited : ∀ key, ¬ solver.PulledBy symbol key)
    (tethers : ∀ constraint : Constraint α, constraint.unmarked = pull →
      constraint.isActive = true → constraint.Tethers capped symbol.id)
    (begun : Begun symbol pull target solver after) :
    after.Tallied capped apart placed deals owed := by
  refine ⟨?_, tallied.toTethered.begin registered unedited tethers begun⟩
  obtain ⟨state, found⟩ := registered
  have retained := tallied.toCounted.modify_unknown Variable.retained 1 found rfl
    (Nat.le_add_left _ _)
  have references : ∀ sought, (after.unknowns.get? sought).map Variable.references =
      ((solver.unknowns.modify symbol Variable.retained).get? sought).map
        Variable.references := by
    intro sought
    have outline := congrArg (Option.map fun outline : Nat × Option Symbol × α => outline.1)
      (begun.outline sought)
    rw [Option.map_map] at outline
    refine outline.trans ?_
    rw [Catalog.get?_modify]
    split
    · rw [Option.map_map, Option.map_map]
      rfl
    · rw [Option.map_map]
      rfl
  obtain ⟨constraint, there, is_pull, active⟩ := begun.hidden
  have tied := tethers constraint is_pull active
  apply (retained.exchange ⟨solver.lastConstraint + 1, .external⟩ references begun.elsewhere _
    begun.later).congr_owed
  · intro id
    rw [Catalog.occurrencesAt_of_absent tallied.unwritten, Catalog.occurrencesAt_of_found there]
    by_cases same : id = symbol.id
    · rw [same, Function.update_self, tied.occurrences]
      ring
    · have absent : constraint.expression.occurrences id = 0 := by
        rw [LinearForm.occurrences_eq_zero_iff, tied.alone]
        simpa using Ne.symm same
      rw [Function.update_of_ne same, absent]
      ring
  · intro now found' term member
    obtain rfl := Option.some.inj (there.symm.trans found')
    rw [tied.alone] at member
    obtain rfl := List.mem_singleton.mp member
    refine ⟨state.retained, ?_⟩
    dsimp only
    rw [Catalog.get?_modify, if_pos rfl]
    exact congrArg (Option.map Variable.retained) found

/-- The edit of a variable ends, and its hidden constraint is left to be removed. -/
theorem release (pulled : solver.PulledBy symbol key) (change : Variable α → Variable α)
    (references : ∀ state, (change state).references = state.references)
    (unedited : ∀ state, (change state).edit = none) :
    ({ solver with unknowns := solver.unknowns.modify symbol change } : Solver α).Tallied capped
      (fun id => id = key.id ∨ apart id) (fun id => id = key.id ∨ placed id) deals owed := by
  constructor
  · apply tallied.toCounted.keep Symbol.null
    · exact fun sought => Catalog.map_get?_modify _ _ _ _ references
    · exact fun _ _ => rfl
    · rfl
    · exact Nat.le_refl _
  · apply tallied.toTethered.relabel
    · exact fun _ => rfl
    · rfl
    · rintro sought edit ⟨state, there, edited⟩
      rcases Catalog.of_get?_modify there with ⟨_, before, _, rfl⟩ | ⟨other, there⟩
      · rw [unedited] at edited
        exact absurd edited.symm (Option.some_ne_none edit)
      · have still : solver.PulledBy sought edit := ⟨state, there, edited⟩
        refine ⟨still, not_or_intro ?_ (tallied.held sought edit still).1⟩
        exact fun same => other (tallied.unique still pulled same)
    · rintro sought edit ⟨state, there, edited⟩
      by_cases same : sought.id = symbol.id
      · obtain ⟨state', there', edited'⟩ := pulled
        rw [solver.unknowns.get?_congr same, there'] at there
        obtain rfl := Option.some.inj there
        rw [edited'] at edited
        rw [← Option.some.inj edited]
        exact Or.inl (Or.inl rfl)
      · refine Or.inr ⟨state, ?_, edited⟩
        dsimp only
        rw [Catalog.get?_modify, if_neg same]
        exact there
    · exact fun _ _ _ => Or.inr
    · rintro id (rfl | stands)
      · exact tallied.key_below pulled
      · exact tallied.apart_below id stands

/-- All edits end at once. -/
theorem forget {unknowns : Catalog (Variable α)} (forgotten : ∀ symbol,
      unknowns.get? symbol = (solver.unknowns.get? symbol).map fun state =>
        { state with edit := none }) :
    ({ solver with unknowns } : Solver α).Tallied capped (· ≤ solver.lastConstraint)
      (fun id => (∃ key ∈ solver.edits, key.id = id) ∨ placed id) deals owed := by
  constructor
  · apply tallied.toCounted.keep Symbol.null
    · intro symbol
      dsimp only
      rw [forgotten, Option.map_map]
      rfl
    · exact fun _ _ => rfl
    · rfl
    · exact Nat.le_refl _
  · apply tallied.toTethered.relabel
    · exact fun _ => rfl
    · rfl
    · rintro symbol edit ⟨state, there, edited⟩
      dsimp only at there
      rw [forgotten] at there
      obtain ⟨before, _, rfl⟩ := Option.map_eq_some_iff.mp there
      exact absurd edited.symm (Option.some_ne_none edit)
    · intro symbol edit pulled
      exact Or.inl (Or.inl ⟨edit, (solver.mem_edits_iff_exists edit).mpr ⟨symbol, pulled⟩, rfl⟩)
    · exact fun _ _ _ => Or.inr
    · exact fun _ => id

/-- Where no variable is edited, every constraint may lose its markers. -/
theorem unmark {constraints : Catalog (Constraint α)} {tableau : Tableau α}
    (unedited : ∀ symbol key, ¬ solver.PulledBy symbol key)
    (unmarked : ∀ key, constraints.get? key = (solver.constraints.get? key).map
      Constraint.unmarked) :
    ({ solver with tableau, constraints } : Solver α).Tallied capped apart placed deals owed := by
  constructor
  · apply tallied.toCounted.of_expressions
    intro key
    rw [unmarked, Option.map_map]
    rfl
  · have was : ∀ key constraint, constraints.get? key = some constraint →
        ∃ before, solver.constraints.get? key = some before := by
      intro key constraint found
      rw [unmarked] at found
      obtain ⟨before, there, _⟩ := Option.map_eq_some_iff.mp found
      exact ⟨before, there⟩
    constructor
    · exact fun symbol key pulled => absurd pulled (unedited symbol key)
    · intro key constraint found
      obtain ⟨before, there⟩ := was key constraint found
      exact tallied.claimed key before there
    · intro key constraint found
      obtain ⟨before, there⟩ := was key constraint found
      exact tallied.below key before there
    · exact tallied.apart_below

end Tallied

end Solver

end SoftSimplex
