import SoftSimplex.Proofs.Solver.Bookkeeping

/-!
# References and removal

Removing a constraint can remove variables, and with an edited one its hidden constraint. Every
step of the cascade leaves the solver in good standing. The cascade ends with no loose constraint
left over, because each removal makes the catalog of constraints smaller.
-/

namespace SoftSimplex

variable {discipline : Discipline} {kinds : Nat → Symbol.Kind} {offset offset' : Nat → Rat}
  {solver other third : Solver Rat} {issued issued' loose loose' : Nat → Prop}
  {key symbol : Symbol} {constraint : Constraint Rat}

namespace Solver

/-- The solver is in good standing, edits included. -/
def Sound (discipline : Discipline) (issued loose : Nat → Prop) (solver : Solver Rat) : Prop :=
  ∃ kinds offset, solver.Standing discipline kinds offset ∧ solver.Editing issued loose offset

/-- What actions on some constraints spare: the constraints of a class. No edit begins. -/
structure Spares (spared : Nat → Prop) (solver other : Solver Rat) : Prop where
  identity : other.identity = solver.identity
  lastConstraint : other.lastConstraint = solver.lastConstraint
  autoUpdate : other.autoUpdate = solver.autoUpdate
  constraints : ∀ key : Symbol, spared key.id →
    other.constraints.get? key = solver.constraints.get? key
  edits : ∀ symbol key target, other.Edits symbol key target → solver.Edits symbol key target

theorem Spares.refl (spared : Nat → Prop) (solver : Solver Rat) : Spares spared solver solver :=
  ⟨rfl, rfl, rfl, fun _ _ => rfl, fun _ _ _ => id⟩

theorem Spares.trans {spared : Nat → Prop} (spares : Spares spared solver other)
    (spares' : Spares spared other third) : Spares spared solver third where
  identity := spares'.identity.trans spares.identity
  lastConstraint := spares'.lastConstraint.trans spares.lastConstraint
  autoUpdate := spares'.autoUpdate.trans spares.autoUpdate
  constraints key is_spared :=
    (spares'.constraints key is_spared).trans (spares.constraints key is_spared)
  edits symbol key target := spares.edits symbol key target ∘ spares'.edits symbol key target

theorem Spares.mono {spared fewer : Nat → Prop} (spares : Spares spared solver other)
    (within : ∀ id, fewer id → spared id) : Spares fewer solver other :=
  { spares with constraints := fun key is_fewer => spares.constraints key (within _ is_fewer) }

theorem aim_congr (outlines : (other.unknowns.get? symbol).map Variable.outline =
    (solver.unknowns.get? symbol).map Variable.outline) :
    (other.unknowns.get? symbol).map Variable.aim =
      (solver.unknowns.get? symbol).map Variable.aim := by
  have inner := congrArg (Option.map Prod.snd) outlines
  rwa [Option.map_map, Option.map_map] at inner

theorem Framed.spares {changed spared : Nat → Prop} (framed : Framed changed solver other)
    (unchanged : ∀ id, spared id → ¬ changed id) : Spares spared solver other where
  identity := framed.identity
  lastConstraint := framed.lastConstraint
  autoUpdate := framed.autoUpdate
  constraints key is_spared := framed.constraints key (unchanged _ is_spared)
  edits symbol key target := (edits_congr (aim_congr (framed.outline symbol)) key target).mp

/-- The constraint under the key is a live required equality. -/
def IsFirm (solver : Solver Rat) (key : Symbol) : Prop :=
  ∃ constraint, solver.constraints.get? key = some constraint ∧ constraint.isActive = true ∧
    constraint.relation = some .equal ∧ constraint.strength.isRequired = true

theorem Editing.not_isFirm (editing : solver.Editing issued loose offset)
    (is_loose : loose key.id) : ¬ solver.IsFirm key := by
  rintro ⟨constraint, found, _, _, required⟩
  obtain ⟨_, _, found', soft⟩ := editing.loosened key is_loose
  rw [found] at found'
  obtain rfl := Option.some.inj found'
  rw [required] at soft
  exact Bool.noConfusion soft

/-- Changing references, or letting variables go, changes no cache that is left. -/
theorem Standing.with_unknowns (standing : solver.Standing discipline kinds offset)
    (unknowns : Catalog (Variable Rat))
    (registered : ∀ symbol state, unknowns.get? symbol = some state →
      ∃ before, solver.unknowns.get? symbol = some before ∧ state.isStale = before.isStale ∧
        state.value = before.value) :
    ({ solver with unknowns } : Solver Rat).Standing discipline kinds offset :=
  standing.rebooked { solver with unknowns } rfl rfl rfl registered (fun _ _ _ => Iff.rfl)
    fun key constraint found => ⟨standing.key_below key constraint found,
      standing.toCatalogued.dormant found⟩

theorem registered_modify {change : Variable Rat → Variable Rat}
    (keeps : ∀ state, (change state).isStale = state.isStale ∧ (change state).value = state.value)
    {sought : Symbol} {state : Variable Rat}
    (found : (solver.unknowns.modify symbol change).get? sought = some state) :
    ∃ before, solver.unknowns.get? sought = some before ∧ state.isStale = before.isStale ∧
      state.value = before.value := by
  rw [Catalog.get?_modify] at found
  split at found
  · obtain ⟨before, was, rfl⟩ := Option.map_eq_some_iff.mp found
    exact ⟨before, was, keeps before⟩
  · exact ⟨state, found, rfl, rfl⟩

theorem aim_modify {change : Variable Rat → Variable Rat}
    (aims : ∀ state, (change state).aim = state.aim) (sought : Symbol) :
    ((solver.unknowns.modify symbol change).get? sought).map Variable.aim =
      (solver.unknowns.get? sought).map Variable.aim :=
  Catalog.map_get?_modify _ _ _ _ aims

/-- Counting references differently. -/
theorem Sound.modify_references (sound : solver.Sound discipline issued loose) (symbol : Symbol)
    (change : Variable Rat → Variable Rat)
    (keeps : ∀ state, (change state).isStale = state.isStale ∧ (change state).value = state.value)
    (aims : ∀ state, (change state).aim = state.aim) :
    ({ solver with unknowns := solver.unknowns.modify symbol change } : Solver Rat).Sound
      discipline issued loose ∧
    Spares (fun _ => True) solver
      { solver with unknowns := solver.unknowns.modify symbol change } := by
  obtain ⟨kinds, offset, standing, editing⟩ := sound
  have edits : ∀ sought key target,
      ({ solver with unknowns := solver.unknowns.modify symbol change } : Solver Rat).Edits sought
        key target ↔ solver.Edits sought key target :=
    fun sought => edits_congr (aim_modify aims sought)
  refine ⟨⟨kinds, offset, standing.with_unknowns _ fun _ _ => registered_modify keeps, ?_⟩,
    rfl, rfl, rfl, fun _ _ => rfl, fun sought key target => (edits sought key target).mp⟩
  exact editing.kept standing.toOrderly _ edits
    (fun _ _ unissued fixed => ⟨rfl, rfl, unissued, fixed⟩) editing.loosened
    (fun id => editing.loose_of_moved standing.toOrderly) editing.issued_below editing.claimed

theorem edits_of_edits_erase {sought : Symbol} {target : Rat}
    (edits : ({ solver with unknowns := solver.unknowns.erase symbol } : Solver Rat).Edits sought
      key target) : sought.id ≠ symbol.id ∧ solver.Edits sought key target := by
  obtain ⟨state, there, edit, aimed⟩ := edits
  dsimp only at there
  rw [Catalog.get?_erase] at there
  split at there
  · exact absurd there (by simp)
  · rename_i apart
    exact ⟨apart, state, there, edit, aimed⟩

theorem Sound.congr (sound : solver.Sound discipline issued loose)
    (same : ∀ id, loose' id ↔ loose id) : solver.Sound discipline issued loose' := by
  rwa [show loose' = loose from funext fun id => propext (same id)]

/-- The edits when a constraint other than a hidden one goes. -/
theorem Editing.removed (editing : solver.Editing issued loose offset)
    (orderly : solver.Orderly kinds) (apart : loose key.id ∨ issued key.id)
    (framed : Framed (fun id => id = key.id) solver other)
    (gone : other.constraints.get? key = none) :
    other.Editing issued (fun id => loose id ∧ id ≠ key.id)
      (Function.update offset key.id 0) := by
  have elsewhere : ∀ {id}, id ≠ key.id → Function.update offset key.id 0 id = offset id :=
    fun distinct => Function.update_of_ne distinct _ _
  refine editing.kept orderly other (fun symbol => edits_congr (aim_congr (framed.outline symbol)))
    (fun sought _ unissued fixed => ?_) (fun sought is_loose => ?_) (fun id origin moved => ?_) ?_
    fun sought constraint found => ?_
  · have distinct : sought.id ≠ key.id := by
      intro same
      rw [same] at unissued fixed
      exact apart.elim fixed unissued
    exact ⟨framed.constraints sought distinct, elsewhere distinct, unissued,
      fun is_loose => fixed is_loose.1⟩
  · rw [framed.constraints sought is_loose.2]
    exact editing.loosened sought is_loose.1
  · have distinct : id ≠ key.id := by
      rintro rfl
      exact moved (Function.update_self _ _ _)
    rw [elsewhere distinct] at moved
    exact ⟨editing.loose_of_moved orderly origin moved, distinct⟩
  · rw [framed.lastConstraint]
    exact editing.issued_below
  · have distinct : sought.id ≠ key.id := by
      intro same
      rw [other.constraints.get?_congr same, gone] at found
      exact Option.some_ne_none constraint found.symm
    rw [framed.constraints sought distinct] at found
    exact (editing.claimed sought constraint found).imp_right
      (Or.imp_left fun is_loose => ⟨is_loose, distinct⟩)

/-- A constraint that takes no part can go. -/
theorem Standing.erase (standing : solver.Standing discipline kinds offset)
    (found : solver.constraints.get? key = some constraint)
    (inactive : constraint.isActive = false) :
    ({ solver with constraints := solver.constraints.erase key } : Solver Rat).Standing discipline
      kinds offset := by
  refine standing.rebooked { solver with constraints := solver.constraints.erase key } rfl rfl rfl
    (fun symbol state there => ⟨state, there, rfl, rfl⟩) (fun sought other active => ?_)
    fun sought other there => ?_
  · dsimp only
    rw [Catalog.get?_erase]
    split
    · rename_i same
      rw [solver.constraints.get?_congr same, found, Option.some.injEq]
      refine ⟨fun absurdity => absurd absurdity (by simp), ?_⟩
      rintro rfl
      rw [inactive] at active
      exact Bool.noConfusion active
    · rfl
  · dsimp only at there
    rw [Catalog.get?_erase] at there
    split at there
    · exact absurd there (by simp)
    · exact ⟨standing.key_below sought other there, standing.toCatalogued.dormant there⟩

end Solver

namespace Action

open Solver

/-- A deactivated constraint stays registered. -/
theorem Deactivated.constraintCount (deactivated : Deactivated discipline kinds offset key solver
    other) : other.constraintCount = solver.constraintCount := by
  refine Catalog.size_congr fun sought => ?_
  by_cases same : sought.id = key.id
  · rw [other.constraints.get?_congr same, solver.constraints.get?_congr same, deactivated.found,
      Option.isSome_map]
  · rw [deactivated.constraints sought same]

/-- When the last reference to an edited variable goes, its hidden constraint is loose. -/
theorem leads_dropReference (sound : solver.Sound discipline issued loose) (symbol : Symbol) :
    (dropReference symbol).Leads solver fun result after =>
      after.constraints = solver.constraints ∧ Spares (fun _ => True) solver after ∧
        match result with
        | none => after.Sound discipline issued loose
        | some key => after.Sound discipline issued (fun id => loose id ∨ id = key.id) ∧
            ¬ loose key.id ∧ ¬ issued key.id := by
  refine Yields.read_bind ?_
  cases found : solver.unknowns.get? symbol with
  | none => exact Yields.pure ⟨rfl, .refl _ _, sound⟩
  | some state =>
      dsimp only
      split
      · have modified := sound.modify_references symbol Variable.released (fun _ => ⟨rfl, rfl⟩)
          fun _ => rfl
        exact Yields.update_bind (Yields.pure ⟨rfl, modified.2, modified.1⟩)
      · refine Yields.update_bind (Yields.pure ⟨rfl, ⟨rfl, rfl, rfl, fun _ _ => rfl,
          fun _ _ _ edits => (edits_of_edits_erase edits).2⟩, ?_⟩)
        obtain ⟨kinds, offset, standing, editing⟩ := sound
        have erased : ({ solver with unknowns := solver.unknowns.erase symbol } :
            Solver Rat).Standing discipline kinds offset := by
          refine standing.with_unknowns _ fun sought left there => ?_
          rw [Catalog.get?_erase] at there
          split at there
          · exact absurd there (by simp)
          · exact ⟨left, there, rfl, rfl⟩
        have ends : ∀ loose' : Nat → Prop, (∀ id, loose' id ↔ loose id ∨
            ∃ sought key target, sought.id = symbol.id ∧ solver.Edits sought key target ∧
              key.id = id) →
            ({ solver with unknowns := solver.unknowns.erase symbol } : Solver Rat).Editing issued
              loose' offset := by
          refine fun loose' now_loose => editing.loosen standing.registers
            { solver with unknowns := solver.unknowns.erase symbol }
            (fun id => id = symbol.id) (fun sought _ _ apart => edits_congr ?_ _ _) ?_ rfl rfl
            now_loose
          · dsimp only
            rw [Catalog.get?_erase, if_neg apart]
          · exact fun sought key target same edits => (edits_of_edits_erase edits).1 same
        cases edit : state.edit with
        | none =>
            refine ⟨kinds, offset, erased, ends loose fun id => ⟨Or.inl, fun either => ?_⟩⟩
            rcases either with is_loose | ⟨sought, key, target, same, ⟨there, was, edits, _⟩, _⟩
            · exact is_loose
            · rw [solver.unknowns.get?_congr same, found] at was
              rw [← Option.some.inj was, edit] at edits
              exact absurd edits.symm (Option.some_ne_none _)
        | some key =>
            have edits : solver.Edits symbol key state.target := ⟨state, found, edit, rfl⟩
            obtain ⟨_, unissued, fixed⟩ := editing.pulled symbol key state.target edits
            refine ⟨⟨kinds, offset, erased, ends _ fun id => or_congr_right ⟨fun same =>
              ⟨symbol, key, _, rfl, edits, same.symm⟩, ?_⟩⟩, fixed, unissued⟩
            rintro ⟨sought, key', target, same, ⟨there, was, edits', _⟩, named⟩
            rw [solver.unknowns.get?_congr same, found] at was
            rw [← Option.some.inj was, edit] at edits'
            rw [← named, Option.some.inj edits']

/-- Dropping a reference and removing the constraint that goes with it leaves what was loose
before, if removing does what it should. -/
theorem leads_releaseBy {remove : Symbol → Action Rat Unit}
    (removes : ∀ {between : Solver Rat} {key : Symbol},
      between.Sound discipline issued (fun id => loose id ∨ id = key.id) →
      ¬ between.IsFirm key → between.constraintCount = solver.constraintCount →
        (remove key).Leads between fun _ after =>
          after.Sound discipline issued (fun id => (loose id ∨ id = key.id) ∧ id ≠ key.id) ∧
            Spares (fun id => issued id ∧ id ≠ key.id) between after ∧
              after.constraintCount ≤ between.constraintCount)
    (sound : solver.Sound discipline issued loose) (symbol : Symbol) :
    (do match ← dropReference symbol with
        | none => pure ()
        | some edit => remove edit : Action Rat Unit).Leads solver fun _ after =>
      after.Sound discipline issued loose ∧ Spares issued solver after ∧
        after.constraintCount ≤ solver.constraintCount := by
  refine Yields.bind (leads_dropReference sound symbol) ?_
  rintro result dropped ⟨same, spares, outcome⟩
  have same_count : dropped.constraintCount = solver.constraintCount := by
    rw [constraintCount, same, constraintCount]
  have spared : Spares issued solver dropped := spares.mono fun _ _ => trivial
  cases result with
  | none => exact Yields.pure ⟨outcome, spared, same_count.le⟩
  | some edit =>
      obtain ⟨sound', fixed, unissued⟩ := outcome
      obtain ⟨_, _, _, editing⟩ := id sound'
      refine Yields.weaken (removes sound' (editing.not_isFirm (Or.inr rfl)) same_count) ?_
      rintro _ after ⟨sound'', spares', fewer⟩
      refine ⟨sound''.congr fun id => ⟨fun still => ⟨Or.inl still, ?_⟩, fun both =>
        both.1.resolve_right both.2⟩, spared.trans (spares'.mono fun id is_issued =>
          ⟨is_issued, ?_⟩), fewer.trans same_count.le⟩
      · rintro rfl
        exact fixed still
      · rintro rfl
        exact unissued is_issued

/-! ## Removing constraints -/

/-- Once a constraint has been taken out, it can be erased, and nothing else changes. -/
theorem Deactivated.standing_erase {after : Solver Rat} {constraint : Constraint Rat}
    (deactivated : Deactivated discipline kinds offset key solver after)
    (taken : after.constraints.get? key = some constraint) :
    ({ after with constraints := after.constraints.erase key } : Solver Rat).Standing discipline
      kinds offset := by
  have found := deactivated.found
  rw [taken] at found
  obtain ⟨_, _, rfl⟩ := Option.map_eq_some_iff.mp found.symm
  exact deactivated.toStanding.erase taken rfl

theorem Deactivated.framed_erase {after : Solver Rat}
    (deactivated : Deactivated discipline kinds offset key solver after) :
    Framed (fun id => id = key.id) solver
      { after with constraints := after.constraints.erase key } := by
  refine deactivated.toFramed.trans ⟨rfl, rfl, rfl, fun _ => rfl, fun sought distinct => ?_⟩
  dsimp only
  rw [Catalog.get?_erase, if_neg distinct]

/-- Removing a constraint removes every constraint that is loose on its account. -/
theorem leads_removeWithin (depth : Nat) (sound : solver.Sound discipline issued loose)
    (apart : loose key.id ∨ issued key.id) (kept : discipline.steady → ¬ solver.IsFirm key)
    (few : solver.constraintCount ≤ depth) :
    (removeWithin depth key).Leads solver fun _ after =>
      after.Sound discipline issued (fun id => loose id ∧ id ≠ key.id) ∧
        Spares (fun id => issued id ∧ id ≠ key.id) solver after ∧
          (issued key.id → after.constraints.get? key = none) ∧
            after.constraintCount ≤ solver.constraintCount := by
  -- Every constraint that goes takes one from the registry, so the depth never runs out early.
  induction depth generalizing solver key loose with
  | zero =>
      obtain ⟨kinds, offset, standing, editing⟩ := sound
      have empty : ∀ sought constraint, solver.constraints.get? sought ≠ some constraint := by
        intro sought constraint found
        have counted := Catalog.size_erase_of_found found
        rw [constraintCount] at few
        omega
      have gone := Option.eq_none_iff_forall_ne_some.mpr (empty key)
      refine Yields.pure ⟨⟨kinds, _, ?_, editing.removed standing.toOrderly apart
        ⟨rfl, rfl, rfl, fun _ => rfl, fun _ _ => rfl⟩ gone⟩, .refl _ _, fun _ => gone, le_rfl⟩
      exact standing.reoffset fun sought constraint found _ =>
        absurd found (empty sought constraint)
  | succ depth inductionHypothesis =>
      obtain ⟨kinds, offset, standing, editing⟩ := sound
      have elsewhere : ∀ id, id ≠ key.id → Function.update offset key.id 0 id = offset id :=
        fun id distinct => Function.update_of_ne distinct _ _
      refine Yields.bind (leads_deactivate standing (fun steady constraint found active both =>
        kept steady ⟨constraint, found, active, both⟩) elsewhere) ?_
      rintro _ between deactivated
      refine Yields.read_bind ?_
      cases taken : between.constraints.get? key with
      | none =>
          have removed := editing.removed standing.toOrderly apart deactivated.toFramed taken
          simp only [Catalog.take?, taken, Option.map_none]
          exact Yields.pure ⟨⟨kinds, _, deactivated.toStanding, removed⟩,
            deactivated.toFramed.spares fun _ both => both.2, fun _ => taken,
              deactivated.constraintCount.le⟩
      | some constraint =>
          simp only [Catalog.take?, taken, Option.map_some]
          refine Yields.update_bind ?_
          have gone : (between.constraints.erase key).get? key = none := by
            rw [Catalog.get?_erase, if_pos rfl]
          have framed := deactivated.framed_erase
          have started : Sound discipline issued (fun id => loose id ∧ id ≠ key.id)
              { between with constraints := between.constraints.erase key } :=
            ⟨kinds, _, deactivated.standing_erase taken,
              editing.removed standing.toOrderly apart framed gone⟩
          have spared : Spares (fun id => issued id ∧ id ≠ key.id) solver
              { between with constraints := between.constraints.erase key } :=
            framed.spares fun _ both => both.2
          have count : (between.constraints.erase key).size + 1 = solver.constraintCount :=
            (Catalog.size_erase_of_found taken).trans deactivated.constraintCount
          refine Yields.weaken (Yields.forM (fun after =>
            after.Sound discipline issued (fun id => loose id ∧ id ≠ key.id) ∧
              Spares (fun id => issued id ∧ id ≠ key.id) solver after ∧
                (issued key.id → after.constraints.get? key = none) ∧
                  after.constraintCount + 1 ≤ solver.constraintCount)
            (fun term _ before going => ?_) ⟨started, spared, fun _ => gone, count.le⟩) ?_
          · obtain ⟨sound, spares, away, small⟩ := going
            refine Yields.weaken (leads_releaseBy (fun sound' unlocked same_count =>
              Yields.weaken (inductionHypothesis sound' (Or.inl (Or.inr rfl)) (fun _ => unlocked)
                (by omega)) fun _ _ all => ⟨all.1, all.2.1, all.2.2.2⟩) sound term.1) ?_
            rintro _ after ⟨sound', spares', fewer⟩
            exact ⟨sound', spares.trans (spares'.mono fun _ both => both.1),
              fun is_issued => (spares'.constraints key is_issued).trans (away is_issued), by omega⟩
          · rintro _ after ⟨sound, spares, away, small⟩
            exact ⟨sound, spares, away, by omega⟩

theorem leads_removeConstraint (sound : solver.Sound discipline issued loose)
    (apart : loose key.id ∨ issued key.id) (kept : discipline.steady → ¬ solver.IsFirm key) :
    (removeConstraint key : Action Rat Unit).Leads solver fun _ after =>
      after.Sound discipline issued (fun id => loose id ∧ id ≠ key.id) ∧
        Spares (fun id => issued id ∧ id ≠ key.id) solver after ∧
          (issued key.id → after.constraints.get? key = none) :=
  Yields.read_bind (Yields.weaken (leads_removeWithin _ sound apart kept le_rfl)
    fun _ _ all => ⟨all.1, all.2.1, all.2.2.1⟩)

/-- Removing what an ended edit has left. -/
theorem leads_removeLoose (sound : solver.Sound discipline issued loose) (is_loose : loose key.id) :
    (removeConstraint key : Action Rat Unit).Leads solver fun _ after =>
      after.Sound discipline issued (fun id => loose id ∧ id ≠ key.id) ∧
        Spares issued solver after := by
  obtain ⟨_, _, _, editing⟩ := id sound
  refine Yields.weaken (leads_removeConstraint sound (Or.inl is_loose)
    fun _ => editing.not_isFirm is_loose) ?_
  rintro _ after ⟨sound', spares, _⟩
  refine ⟨sound', spares.mono fun id is_issued => ⟨is_issued, ?_⟩⟩
  rintro rfl
  exact (editing.loosened key is_loose).1 is_issued

/-- Removing all that ended edits have left. -/
theorem leads_removeAll (keys : List Symbol) (apart : keys.Pairwise fun first second =>
      first.id ≠ second.id)
    (sound : solver.Sound discipline issued fun id => ∃ key ∈ keys, key.id = id) :
    (keys.forM removeConstraint : Action Rat Unit).Leads solver fun _ after =>
      after.Sound discipline issued (fun _ => False) ∧ Spares issued solver after := by
  induction keys generalizing solver with
  | nil => exact Yields.pure ⟨sound.congr fun id => by simp, .refl _ _⟩
  | cons first rest inductionHypothesis =>
      obtain ⟨distinct, apart_rest⟩ := List.pairwise_cons.mp apart
      refine Yields.bind (leads_removeLoose sound ⟨first, List.mem_cons_self, rfl⟩) ?_
      rintro _ between ⟨sound', spares⟩
      have left : between.Sound discipline issued fun id => ∃ key ∈ rest, key.id = id := by
        refine sound'.congr fun id => ⟨?_, ?_⟩
        · rintro ⟨key, member, rfl⟩
          exact ⟨⟨key, List.mem_cons_of_mem _ member, rfl⟩, (distinct key member).symm⟩
        · rintro ⟨⟨key, member, rfl⟩, other⟩
          rcases List.mem_cons.mp member with rfl | inside
          · exact absurd rfl other
          · exact ⟨key, inside, rfl⟩
      refine Yields.weaken (inductionHypothesis apart_rest left) ?_
      rintro _ after ⟨sound'', spares'⟩
      exact ⟨sound'', spares.trans spares'⟩

/-- Removing what the only edit that ended has left. -/
theorem leads_removeConstraint_loose
    (sound : solver.Sound discipline issued fun id => id = key.id) :
    (removeConstraint key : Action Rat Unit).Leads solver fun _ after =>
      after.Sound discipline issued (fun _ => False) ∧ Spares issued solver after := by
  refine Yields.weaken (leads_removeLoose sound rfl) ?_
  rintro _ after ⟨sound', spares⟩
  exact ⟨sound'.congr fun id => ⟨False.elim, fun both => both.2 both.1⟩, spares⟩

theorem leads_releaseVariable (sound : solver.Sound discipline issued fun _ => False)
    (symbol : Symbol) :
    (releaseVariable symbol : Action Rat Unit).Leads solver fun _ after =>
      after.Sound discipline issued (fun _ => False) ∧ Spares issued solver after := by
  refine Yields.bind (leads_dropReference sound symbol) ?_
  rintro result between ⟨_, spares, outcome⟩
  have spared : Spares issued solver between := spares.mono fun _ _ => trivial
  cases result with
  | none => exact Yields.pure ⟨outcome, spared⟩
  | some key =>
      have sound' : between.Sound discipline issued fun id => id = key.id :=
        outcome.1.congr fun id => ⟨Or.inr, fun either => either.resolve_left fun no => no⟩
      refine Yields.weaken (leads_removeConstraint_loose sound') ?_
      rintro _ after ⟨sound'', spares'⟩
      exact ⟨sound'', spared.trans spares'⟩

theorem leads_trackTerm (sound : solver.Sound discipline issued fun _ => False) (symbol : Symbol)
    (before after : LinearForm Rat) :
    (trackTerm symbol before after).Leads solver fun _ tracked =>
      tracked.Sound discipline issued (fun _ => False) ∧ Spares issued solver tracked := by
  unfold trackTerm
  split
  · have modified := sound.modify_references symbol Variable.retained (fun _ => ⟨rfl, rfl⟩)
      fun _ => rfl
    exact Yields.update ⟨modified.1, modified.2.mono fun _ _ => trivial⟩
  · exact leads_releaseVariable sound symbol
  · exact Yields.pure ⟨sound, .refl _ _⟩

end Action

end SoftSimplex
