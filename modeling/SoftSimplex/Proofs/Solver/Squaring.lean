import SoftSimplex.Proofs.Solver.Reckoning

/-!
# Squared accounts

The accounts of a solver are squared if nothing is owed, and the constraints that are not hidden are
among those that it has handed out. Every command that names only constraints that were handed out
leaves squared accounts behind, whether it is answered or refused, unless a caller gives up a
reference that it does not hold.
-/

namespace SoftSimplex

variable {α : Type} [Scalar α] {capped : Prop} {apart placed : Nat → Prop} {issued : List Nat}
  {deals : List Deal} {owed : Nat → Int} {solver after : Solver α} {key symbol : Symbol}
  {constraint : Constraint α} {kinds : Nat → Symbol.Kind} {refused : Refusal → Solver α → Prop}
  {paused : Solver α → Prop}

namespace Solver

/-- References are counted with nothing owed, edited variables are tethered, and handles are those
of the constraints that are not hidden. -/
def Squared (capped : Prop) (issued : List Nat) (deals : List Deal) (solver : Solver α) : Prop :=
  solver.Tallied capped (· ∈ issued) (· ∈ issued) deals fun _ => 0

theorem Squared.new (capped : Prop) (identity : Nat) (options : Options) :
    (Solver.new identity options : Solver α).Squared capped [] [] := by
  have tallied : (Solver.new identity options : Solver α).Tallied capped (fun _ => False)
      (fun _ => False) [] fun _ => 0 := ⟨.new identity options, .new capped _ identity options⟩
  exact tallied.mono (fun _ member => absurd member List.not_mem_nil) fun _ _ _ => False.elim

/-- A handle has been given out. -/
theorem Tallied.issue {id : Nat} (tallied : solver.Tallied capped
      (fun other => other = id ∨ other ∈ issued) (fun other => other = id ∨ other ∈ issued) deals
        fun _ => 0) : solver.Squared capped (id :: issued) deals :=
  tallied.mono (fun _ => List.mem_cons.mp) fun _ _ _ => List.mem_cons.mpr

end Solver

namespace Action

open Solver

/-- A variable is created above all registered ones. -/
theorem tallies_createVariable (accounted : solver.Accounted kinds)
    (tallied : solver.Tallied capped apart placed deals owed) :
    (createVariable : Action α VariableHandle).Meets solver (fun handle after =>
      after.Tallied capped apart placed (.created handle.id :: deals) owed) refused paused := by
  refine Meets.read_bind (Meets.update_bind (Meets.pure ?_))
  have absent : solver.unknowns.get? (solver.symbols.draw .external).1 = none := by
    rw [Option.eq_none_iff_forall_ne_some]
    intro state found
    exact absurd (accounted.registered _ state found).2.2 (Nat.not_succ_le_self _)
  have pulled : ∀ sought edit, ({ solver with
      symbols := (solver.symbols.draw .external).2
      unknowns := solver.unknowns.insert (solver.symbols.draw .external).1 Variable.fresh } :
        Solver α).PulledBy sought edit ↔ solver.PulledBy sought edit := by
    intro sought edit
    unfold PulledBy
    dsimp only
    rw [Catalog.get?_insert]
    split
    · rename_i same
      rw [solver.unknowns.get?_congr same, absent]
      simp [Variable.fresh]
    · rfl
  constructor
  · exact tallied.insert_fresh absent (Nat.lt_succ_self _) (Nat.le_refl _)
  · exact tallied.toTethered.of_edits pulled (fun _ => rfl) rfl

section Variables

variable {handle : VariableHandle} (tallied : solver.Tallied capped apart placed deals fun _ => 0)

include tallied

theorem tallies_shareVariable :
    (shareVariable handle).Meets solver (fun _ after =>
      after.Tallied capped apart placed (.shared handle.id :: deals) fun _ => 0)
      (fun _ after => after = solver) paused := by
  refine Meets.read_bind (Meets.demand_bind ?_ fun _ _ => rfl)
  intro state is_state
  obtain ⟨_, found⟩ := of_findVariable is_state
  have covered : 0 ≤ Deal.balance (.shared handle.id :: deals) handle.id := by
    have before := tallied.covered handle.id
    simp only [Deal.balance_cons, Deal.weight, if_true]
    omega
  have dealt : solver.Tallied capped apart placed (.shared handle.id :: deals) _ :=
    ⟨tallied.toCounted.deal (fun _ => by simp) found covered, tallied.toTethered⟩
  have retained := dealt.modify_unknown Variable.retained 1 found rfl (Nat.le_add_left _ _)
    fun _ => rfl
  apply Meets.update
  apply retained.congr_owed
  intro id
  by_cases same : id = handle.id
  · simp [same, VariableHandle.symbol, Deal.weight]
  · simp [same, Ne.symm same, VariableHandle.symbol, Deal.weight]

/-- A caller gives up a reference that it holds. -/
theorem tallies_giveUpVariable {state : Variable α}
    (is_state : solver.findVariable handle = .ok state)
    (covered : 0 ≤ Deal.balance (.gaveUp handle.id :: deals) handle.id) :
    (giveUpVariable handle).Meets solver (fun _ after =>
      after.Tallied capped apart placed (.gaveUp handle.id :: deals) fun _ => 0) refused
        paused := by
  obtain ⟨owned, found⟩ := of_findVariable is_state
  have dealt : solver.Tallied capped apart placed (.gaveUp handle.id :: deals) _ :=
    ⟨tallied.toCounted.deal (fun _ => by simp) found covered, tallied.toTethered⟩
  have debt : (0 : Int) - (Deal.gaveUp handle.id).weight handle.symbol.id = 1 := by
    simp [Deal.weight, VariableHandle.symbol]
  apply Meets.read_bind
  rw [if_pos owned]
  apply (tallies_releaseVariable dealt debt).weaken
  intro _ after released
  apply released.congr_owed
  intro id
  by_cases same : id = handle.symbol.id
  · rw [same, Function.update_self]
  · rw [Function.update_of_ne same]
    exact (congrArg (fun weight : Int => 0 - weight) (if_neg (Ne.symm same))).trans (sub_self 0)

omit tallied in
/-- A variable that is not registered is not given up. -/
theorem meets_giveUpVariable_unknown {reason : Refusal}
    (unknown : solver.findVariable handle = .error reason) :
    (giveUpVariable handle).Meets solver (fun _ after => after = solver) refused paused := by
  apply Meets.read_bind
  split
  · rename_i owned
    have absent : solver.unknowns.get? handle.symbol = none := by
      rw [Option.eq_none_iff_forall_ne_some]
      intro state found
      simp [findVariable, owned, found] at unknown
    have drops : (dropReference handle.symbol).Meets solver
        (fun edit after => edit = none ∧ after = solver) refused paused := by
      apply Meets.read_bind
      simp only [absent]
      exact Meets.pure ⟨rfl, rfl⟩
    apply Meets.bind drops
    rintro _ _ ⟨rfl, rfl⟩
    exact Meets.pure rfl
  · exact Meets.pure rfl

end Variables

theorem tallies_createConstraint (tallied : solver.Tallied capped apart placed deals owed)
    (strength : Strength α) :
    (createConstraint strength).Meets solver (fun handle after =>
      after.Tallied capped (fun id => id = handle.id ∨ apart id)
        (fun id => id = handle.id ∨ placed id) deals owed) refused paused := by
  apply (drafts_createConstraint strength).weaken
  rintro _ after ⟨rfl, drafted⟩
  exact tallied.create drafted rfl

/-- A copy is a new constraint into which another one is merged. -/
theorem tallies_copyConstraint (tallied : solver.Tallied capped apart placed deals fun _ => 0)
    (source : ConstraintHandle) (strength : Strength α) :
    (copyConstraint source strength).Meets solver (fun handle after =>
      after.Tallied capped (fun id => id = handle.id ∨ apart id)
        (fun id => id = handle.id ∨ placed id) deals fun _ => 0)
      (fun _ after => after = solver) InOrder := by
  refine Meets.read_bind (Meets.demand_bind ?_ fun _ _ => rfl)
  intro copied is_copied
  obtain ⟨owned, found⟩ := of_findConstraint is_copied
  apply Meets.bind (drafts_createConstraint _)
  rintro _ between ⟨rfl, drafted⟩
  have created := tallied.create drafted rfl
  have is_added : between.findConstraint source = .ok copied := by
    have old : source.key.id ≠ solver.lastConstraint + 1 :=
      Nat.ne_of_lt (Nat.lt_succ_of_le (tallied.below _ copied found))
    unfold Solver.findConstraint
    rw [if_pos (owned.trans drafted.identity.symm), drafted.constraints, if_neg old, found]
  apply Meets.bind (tallies_mergeFound created (fun _ => Or.inl rfl) is_added
    (drafted.findInactive rfl))
  intro _ merged tallied'
  apply Meets.update_bind
  apply Meets.pure
  exact tallied'.recast (.modify merged _ _ fun _ => rfl) (Or.inl rfl)

section Edits

variable {handle : VariableHandle} (dependable : Scalar.Dependable α)
  (accountable : solver.Accountable)
  (tallied : solver.Tallied capped apart placed deals fun _ => 0)

include dependable accountable tallied

/-- A variable that is not edited yet is tethered, and of any other the tether changes its
strength. -/
theorem tallies_beginEdit {strength : Strength α}
    (priced : capped → strength.weight ≤ strength.weight) :
    (beginEdit handle strength).Meets solver (fun _ after => Kept solver after ∧
      after.Tallied capped apart placed deals fun _ => 0)
      (fun _ after => after = solver) InOrder := by
  have ⟨kinds, accounted⟩ := accountable
  cases is_state : solver.findVariable handle with
  | error reason => exact Meets.read_bind (Meets.denied_bind is_state rfl)
  | ok state =>
      obtain ⟨_, found⟩ := of_findVariable is_state
      have soft := dependable.capped_not_required strength.orRequired
      have weight : capped →
          strength.orRequired.cappedAtStrong.weight ≤ (Strength.strong : Strength α).weight :=
        fun is_capped => dependable.capped_le_strong (priced is_capped)
      cases edited : state.edit with
      | none =>
          have present := (accounted.proper_of_findVariable is_state).1.isNull_eq_false
          apply (meets_beginEdit dependable accountable is_state edited strength).mono
          · rintro _ after ⟨kept, begun⟩
            refine ⟨kept, tallied.begin ⟨state, found⟩ ?_ ?_ begun⟩
            · rintro key ⟨now, there, pulled⟩
              obtain rfl := Option.some.inj (found.symm.trans there)
              exact absurd (edited.symm.trans pulled).symm (Option.some_ne_none key)
            · intro constraint is_pull active
              have same_strength := congrArg Constraint.strength is_pull
              have same_relation := congrArg Constraint.relation is_pull
              have same_terms := congrArg (fun pull => pull.expression.terms) is_pull
              constructor
              · exact active
              · exact same_relation
              · exact (congrArg Strength.isRequired same_strength).trans soft
              · exact fun is_capped => (congrArg Strength.weight same_strength) ▸ weight is_capped
              · exact same_terms.trans (Constraint.pull_terms dependable _ present _)
          · exact fun _ _ => False.elim
          · exact fun _ => id
      | some key =>
          have pulled : solver.PulledBy handle.symbol key := ⟨state, found, edited⟩
          obtain ⟨_, constraint, there, tethers⟩ := tallied.held _ key pulled
          refine Meets.read_bind (Meets.granted_bind is_state ?_)
          simp only [edited]
          apply (meets_reprice accounted there tethers.soft soft).weaken
          rintro _ after ⟨kept, recast, now, either, found'⟩
          refine ⟨kept, tallied.keep recast.alters recast.written ?_⟩
          intro sought edit held same
          refine ⟨_, found', ?_⟩
          rw [tallied.unique held pulled same]
          rcases either with rfl | rfl
          · exact tethers
          · exact ⟨tethers.active, tethers.relation, soft, weight, tethers.alone⟩

omit dependable in
/-- Moving a target leaves edits alone. -/
theorem tallies_moveIfBegun (symbol : Symbol) (target : α) :
    (moveIfBegun symbol target (.ok ())).Meets solver (fun _ after =>
      after.Tallied capped apart placed deals fun _ => 0) refused InOrder := by
  obtain ⟨kinds, accounted⟩ := accountable
  apply Meets.read_bind
  cases solver.unknowns.get? symbol with
  | none => exact Meets.pure tallied
  | some state =>
      dsimp only
      cases state.edit with
      | none => exact Meets.pure tallied
      | some key =>
          apply (meets_moveTarget accounted symbol key state.target target).weaken
          rintro _ after ⟨_, reworked⟩
          have aimed := tallied.of_same (fun key => .modify_unknown solver symbol key
            (fun state => { state with target }) fun _ => ⟨rfl, rfl⟩) fun _ => rfl
          exact aimed.of_same (fun _ => reworked.alters) fun _ => by rw [reworked.constraints]

theorem tallies_suggest (target : α) :
    (suggest handle target).Meets solver (fun _ after =>
      after.Tallied capped apart placed deals fun _ => 0) refused InOrder := by
  apply Meets.read_bind
  cases is_state : solver.findVariable handle with
  | error _ => exact Meets.pure tallied
  | ok state =>
      dsimp only
      split
      · exact tallies_moveIfBegun accountable tallied _ target
      · have begins : (beginEdit handle Strength.medium).Meets solver _ _ _ :=
          tallies_beginEdit dependable accountable tallied fun _ => dependable.medium_le_medium
        apply Meets.bind (Meets.attempt begins)
        intro result between
        cases result with
        | ok _ =>
            rintro ⟨kept, tallied'⟩
            exact tallies_moveIfBegun kept.accountable tallied' _ target
        | error reason =>
            rintro rfl
            exact Meets.read_bind (Meets.pure tallied)

omit dependable in
/-- The hidden constraint goes with its edit. -/
theorem tallies_endEdit :
    (endEdit handle).Meets solver (fun _ after =>
      after.Tallied capped apart placed deals fun _ => 0) refused InOrder := by
  obtain ⟨kinds, accounted⟩ := accountable
  apply Meets.read_bind
  cases is_state : solver.findVariable handle with
  | error _ => exact Meets.pure tallied
  | ok state =>
      dsimp only
      cases edited : state.edit with
      | none => exact Meets.pure tallied
      | some key =>
          have pulled : solver.PulledBy handle.symbol key :=
            ⟨state, (of_findVariable is_state).2, edited⟩
          have freed := accounted.modify_unknown handle.symbol (fun state =>
            { state with edit := none, target := 0 }) fun _ => ⟨rfl, rfl⟩
          have released := tallied.release pulled (fun state =>
            { state with edit := none, target := 0 }) (fun _ => rfl) fun _ => rfl
          apply Meets.update_bind
          apply (tallies_removeConstraint freed.toAccounted released (Or.inl rfl)).weaken
          intro _ after removed
          apply removed.mono fun _ => Or.inr
          exact fun sought _ _ ⟨either, other⟩ => either.resolve_left other

end Edits

/-! ## The solver as a whole -/

/-- Removing constraints one after another, none of them being hidden. -/
theorem tallies_removeAll {keys : List Symbol} (accounted : solver.Accounted kinds)
    (stands : ∀ key ∈ keys, apart key.id)
    (tallied : solver.Tallied capped apart (fun id => (∃ key ∈ keys, key.id = id) ∨ placed id)
      deals fun _ => 0) :
    (keys.forM removeConstraint).Meets solver (fun _ after => Thinned kinds solver after ∧
      after.Tallied capped apart placed deals fun _ => 0) refused InOrder := by
  induction keys generalizing solver with
  | nil =>
      refine Meets.pure ⟨accounted.thinned, tallied.mono (fun _ => id) ?_⟩
      exact fun _ _ _ either => either.resolve_left fun ⟨_, member, _⟩ => List.not_mem_nil member
  | cons first rest inductionHypothesis =>
      have thins : Meets _ _ _ refused _ := meets_removeConstraint accounted first
      have removes : Meets _ _ _ refused _ :=
        tallies_removeConstraint accounted tallied (stands first List.mem_cons_self)
      apply Meets.bind ((thins.and removes).mono (fun _ _ => id) (fun _ _ => And.left)
        fun _ => And.left)
      rintro _ between ⟨thinned, removed⟩
      have left : between.Tallied capped apart (fun id => (∃ key ∈ rest, key.id = id) ∨ placed id)
          deals fun _ => 0 := by
        apply removed.mono fun _ => id
        rintro sought _ _ ⟨⟨key, member, same⟩ | is_placed, other⟩
        · rcases List.mem_cons.mp member with rfl | inside
          · exact absurd same.symm other
          · exact Or.inl ⟨key, inside, same⟩
        · exact Or.inr is_placed
      apply (inductionHypothesis thinned.toAccounted
        (fun key member => stands key (List.mem_cons_of_mem _ member)) left).weaken
      exact fun _ after ⟨thinned', tallied'⟩ => ⟨thinned.trans thinned', tallied'⟩

/-- All edits end, and their hidden constraints are left to be removed. -/
theorem tallies_forgetEdits (accounted : solver.Accounted kinds)
    (tallied : solver.Tallied capped apart placed deals owed) :
    (forgetEdits : Action α (List Symbol)).Meets solver (fun keys after => keys = solver.edits ∧
      Thinned kinds solver after ∧ after.Tallied capped (· ≤ solver.lastConstraint)
        (fun id => (∃ key ∈ solver.edits, key.id = id) ∨ placed id) deals owed)
      refused paused := by
  have forgotten := fun symbol => solver.unknowns.get?_pass [] (fun edits state =>
    ({ state with edit := none }, edits ++ state.edit.toList))
    (fun state => { state with edit := none }) (fun _ _ => rfl) symbol
  refine Meets.read_bind (Meets.update_bind (Meets.pure ⟨pass_edits solver.unknowns, ?_, ?_⟩))
  · apply accounted.with_unknowns
    refine ⟨fun symbol state found => ?_, rfl, fun _ => rfl⟩
    obtain ⟨before, was, rfl⟩ := Option.map_eq_some_iff.mp ((forgotten symbol).symm.trans found)
    exact ⟨before, was, rfl, rfl⟩
  · exact tallied.forget forgotten

/-- After a reset no variable is edited, and no hidden constraint is left. -/
theorem tallies_reset (accountable : solver.Accountable)
    (tallied : solver.Tallied capped apart placed deals fun _ => 0) :
    (reset false).Meets solver (fun _ after =>
      (after.Tallied capped apart placed deals fun _ => 0) ∧
        ∀ symbol key, ¬ after.PulledBy symbol key) refused InOrder := by
  have ends : ∀ before : Solver α, before.Accountable →
      (before.Tallied capped apart placed deals fun _ => 0) →
        (do
          let edits ← forgetEdits
          edits.forM removeConstraint
          refreshAll : Action α Unit).Meets before (fun _ after =>
            (after.Tallied capped apart placed deals fun _ => 0) ∧
              ∀ symbol key, ¬ after.PulledBy symbol key) refused InOrder := by
    rintro before ⟨kinds, accounted⟩ tallied
    apply Meets.bind (tallies_forgetEdits accounted tallied)
    rintro _ forgotten ⟨rfl, thinned, listed⟩
    have low : ∀ key ∈ before.edits, key.id ≤ before.lastConstraint := by
      intro key member
      obtain ⟨symbol, pulled⟩ := (before.mem_edits_iff_exists key).mp member
      exact tallied.key_below pulled
    apply Meets.bind (tallies_removeAll thinned.toAccounted low listed)
    rintro _ removed ⟨thinned', left⟩
    refine Meets.update ⟨left.refresh.mono tallied.apart_below fun _ _ _ => id, ?_⟩
    -- The hidden constraint of an edit would be new, and none has been created.
    intro symbol key pulled
    obtain ⟨hidden, constraint, found, _⟩ := left.refresh.held symbol key pulled
    obtain ⟨old, was, _⟩ := (thinned.trans thinned').thins key constraint found
    exact hidden (tallied.below key old was)
  apply Meets.read_bind
  cases solver.autoUpdate with
  | false => exact Meets.update_bind (ends _ ⟨_, accountable.choose_spec.refresh⟩ tallied.refresh)
  | true => exact ends solver accountable tallied

/-- Emptying the tableau where no variable is edited. -/
theorem tallies_emptyTableau (tallied : solver.Tallied capped apart placed deals owed)
    (unedited : ∀ symbol key, ¬ solver.PulledBy symbol key) :
    (emptyTableau : Action α Unit).Meets solver (fun _ after =>
      after.Tallied capped apart placed deals owed) refused paused :=
  Meets.update (tallied.unmark unedited fun key => solver.constraints.get?_pass () _
    Constraint.unmarked (fun _ _ => rfl) key)

end Action

namespace Command

omit [Scalar α] in
theorem meets_finish {request : Action α Unit} {answered : Reply → Solver α → Prop}
    (meets : request.Meets solver (fun _ after => answered .done after) refused paused) :
    (action.finish request).Meets solver answered refused paused :=
  Action.Meets.bind meets fun _ _ => Action.Meets.pure

/-- Every command leaves squared accounts behind. -/
theorem squares (dependable : Scalar.Dependable α) (command : Command α)
    (accountable : solver.Accountable) (squared : solver.Squared capped issued deals)
    (own : ∀ handle ∈ command.named, handle.owner = solver.identity → handle.id ∈ issued)
    (priced : capped → ∀ strength ∈ command.stated, strength.weight ≤ strength.weight)
    (covered : ∀ handle state, command = giveUpVariable handle →
      solver.findVariable handle = .ok state →
        0 ≤ Deal.balance (.gaveUp handle.id :: deals) handle.id) :
    command.action.Meets solver
      (fun reply after => after.Squared capped (reply.issued ++ issued)
        (command.dealings solver (.answered reply) ++ deals))
      (fun reason after => after.Squared capped issued
        (command.dealings solver (.refused reason) ++ deals)) Solver.InOrder := by
  have unit := dependable.lowered_counts
  have ⟨kinds, accounted⟩ := accountable
  have unchanged : ∀ {ρ : Type} {request : Action α ρ} {answered : ρ → Solver α → Prop},
      request.Meets solver answered (fun _ after => after = solver) Solver.InOrder →
        request.Meets solver answered (fun _ after => after.Squared capped issued deals)
          Solver.InOrder :=
    fun meets => meets.mono (fun _ _ => id) (fun _ _ same => same ▸ squared) fun _ => id
  have single : ∀ {handle : ConstraintHandle}, (∀ named ∈ [handle],
      named.owner = solver.identity → named.id ∈ issued) →
        handle.owner = solver.identity → handle.id ∈ issued :=
    fun own => own _ (List.mem_singleton_self _)
  cases command with
  | createVariable => exact Action.Meets.map (Action.tallies_createVariable accounted squared)
  | shareVariable handle => exact meets_finish (unchanged (Action.tallies_shareVariable squared))
  | giveUpVariable handle =>
      apply meets_finish
      cases is_state : solver.findVariable handle with
      | error reason =>
          apply (Action.meets_giveUpVariable_unknown is_state).weaken
          rintro _ _ rfl
          simp only [dealings, is_state]
          exact squared
      | ok state =>
          apply (Action.tallies_giveUpVariable squared is_state
            (covered handle state rfl is_state)).weaken
          intro _ after given
          simp only [dealings, is_state]
          exact given
  | createConstraint strength =>
      apply Action.Meets.map
      exact (Action.tallies_createConstraint squared strength).weaken
        fun _ _ => Solver.Tallied.issue
  | copyConstraint source strength =>
      apply Action.Meets.map
      exact (unchanged (Action.tallies_copyConstraint squared source strength)).weaken
        fun _ _ => Solver.Tallied.issue
  | mergeConstraint handle source factor =>
      have own := own handle List.mem_cons_self
      exact meets_finish (unchanged (Action.tallies_mergeConstraint squared own source factor))
  | addTerm handle inside coefficient =>
      exact meets_finish (unchanged (Action.tallies_addTerm squared (single own) inside
        coefficient))
  | addConstant handle constant =>
      exact meets_finish (unchanged (Action.tallies_addConstant squared (single own) constant))
  | setRelation handle relation =>
      exact meets_finish (unchanged (Action.tallies_setRelation squared (single own) relation))
  | setStrength handle strength =>
      exact meets_finish (Action.tallies_setStrength squared (single own) unit accountable
        strength)
  | addConstraint handle =>
      exact meets_finish (Action.tallies_addConstraint squared (single own) unit accountable)
  | withdrawConstraint handle =>
      exact meets_finish (Action.tallies_withdrawConstraint squared (single own) accounted)
  | eraseConstraint handle =>
      exact meets_finish (Action.tallies_eraseConstraint squared (single own) accounted)
  | discardConstraint handle =>
      exact meets_finish (Action.tallies_discardConstraint squared (single own) accounted)
  | beginEdit handle strength =>
      have priced := fun is_capped => priced is_capped strength (List.mem_singleton_self _)
      apply meets_finish
      exact (unchanged (Action.tallies_beginEdit dependable accountable squared priced)).weaken
        fun _ _ => And.right
  | suggest handle target =>
      exact meets_finish (Action.tallies_suggest dependable accountable squared target)
  | endEdit handle => exact meets_finish (Action.tallies_endEdit accountable squared)
  | refresh => exact meets_finish (Action.Meets.update squared.refresh)
  | reset dropConstraints =>
      have resets (refused : Refusal → Solver α → Prop) : (Action.reset false).Meets solver
          (fun _ after => after.Squared capped issued deals ∧
            ∀ symbol key, ¬ after.PulledBy symbol key) refused Solver.InOrder :=
        Action.tallies_reset accountable squared
      apply meets_finish
      cases dropConstraints with
      | false => exact (resets _).weaken fun _ _ => And.left
      | true =>
          rw [Action.reset_true_eq]
          apply Action.Meets.bind (resets _)
          exact fun _ after ⟨tallied, unedited⟩ => Action.tallies_emptyTableau tallied unedited
  | setAutoUpdate autoUpdate =>
      apply meets_finish
      exact Action.Meets.update (squared.of_same (fun _ => ⟨fun _ => rfl, fun _ => rfl,
        fun _ _ => rfl, rfl, Nat.le_refl _⟩) fun _ => rfl)

end Command

end SoftSimplex
