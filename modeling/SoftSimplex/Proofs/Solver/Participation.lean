import SoftSimplex.Proofs.Solver.Writing

/-!
# Commands that change who takes part

Adding, withdrawing, erasing and discarding constraints, and giving them another strength. Between
two strengths that are not required only prices change, and the constraint takes part throughout.
-/

namespace SoftSimplex

variable {discipline : Discipline} {kinds : Nat → Symbol.Kind} {offset : Nat → Rat}
  {solver between after : Solver Rat} {issued : Nat → Prop} {key : Symbol}
  {constraint : Constraint Rat} {ledger : Ledger} {strength : Strength Rat}

/-- Charging the difference of two prices. -/
theorem Tableau.Stands.reprice {tableau : Tableau Rat}
    (stands : tableau.Stands kinds (constraint :: ledger) (constraint :: ledger))
    (fit : constraint.Fit kinds) (strength : Strength Rat) :
    (tableau.charge constraint.markers.errors
      (strength.weight - constraint.strength.weight)).Stands kinds
        ({ constraint with strength } :: ledger) ({ constraint with strength } :: ledger) := by
  refine ⟨stands.regular.charge fit.internal_errors _, ⟨stands.tidy.queue, stands.tidy.flagged⟩,
    fun assignment => ?_, stands.prices.charge strength⟩
  have means := stands.means assignment
  rw [List.forall_mem_cons] at means ⊢
  exact means

theorem Ledger.Regular.with_strength (regular : Ledger.Regular kinds (constraint :: ledger))
    (same : strength.isRequired = constraint.strength.isRequired) :
    Ledger.Regular kinds ({ constraint with strength } :: ledger) := by
  have fit : ({ constraint with strength } : Constraint Rat).Fit kinds :=
    ⟨regular.head.expression, by rw [same]; exact regular.head.markers⟩
  have apart := List.pairwise_cons.mp regular.apart
  exact ⟨List.forall_mem_cons.mpr ⟨fit, regular.tail.fit⟩, List.pairwise_cons.mpr apart⟩

namespace Solver

/-- The constraint under the key has another strength. -/
def restrengthened (solver : Solver Rat) (key : Symbol) (strength : Strength Rat) : Solver Rat :=
  { solver with constraints := solver.constraints.modify key fun state => { state with strength } }

theorem get?_restrengthened (solver : Solver Rat) (key : Symbol) (strength : Strength Rat)
    (sought : Symbol) : (solver.restrengthened key strength).constraints.get? sought =
      (solver.constraints.get? sought).map fun state =>
        if sought.id = key.id then { state with strength } else state := by
  rw [restrengthened, Catalog.get?_modify]
  split <;> simp

/-- What is known of a constraint with another strength. -/
theorem of_get?_restrengthened {sought : Symbol} {state : Constraint Rat}
    (there : (solver.restrengthened key strength).constraints.get? sought = some state) :
    ∃ before, solver.constraints.get? sought = some before ∧
      state.expression = before.expression ∧ state.markers = before.markers ∧
        (state.strength = before.strength ∨ state.strength = strength) := by
  rw [get?_restrengthened] at there
  obtain ⟨before, was, rfl⟩ := Option.map_eq_some_iff.mp there
  refine ⟨before, was, ?_⟩
  split
  · exact ⟨rfl, rfl, Or.inr rfl⟩
  · exact ⟨rfl, rfl, Or.inl rfl⟩

theorem isActive_congr {first second : Constraint Rat} (same : first.markers = second.markers) :
    first.isActive = second.isActive := by
  rw [Constraint.isActive, Constraint.isActive, same]

/-- A solver whose tableau has the new price already is in good standing once the strength has
been changed. -/
theorem Catalogued.restrengthened (catalogued : solver.Catalogued discipline kinds offset)
    (found : solver.constraints.get? key = some constraint) (active : constraint.isActive = true)
    (same : strength.isRequired = constraint.strength.isRequired)
    (weight : discipline.priced → 0 ≤ strength.weight)
    (bench : solver.Bench kinds
      ({ constraint.lowered (offset key.id) with strength } ::
        (solver.constraints.erase key).ledger offset)
      ({ constraint.lowered (offset key.id) with strength } ::
        (solver.constraints.erase key).ledger offset))
    (restful : solver.tableau.Restful discipline) (watched : solver.Watched) :
    (solver.restrengthened key strength).Standing discipline kinds offset := by
  have perm := (Catalog.ledger_modify_perm_cons found (fun state => { state with strength }) active
    offset).symm
  have entries := (catalogued.entries.perm
    (Catalog.ledger_perm_cons found active offset)).with_strength same
  refine ⟨⟨⟨catalogued.registers, catalogued.variable_below, ?_, ?_, ?_, ?_, ?_⟩,
    entries.perm perm, ?_⟩, bench.stands.perm perm perm, bench.untouched, restful,
    ⟨watched.queued, fun symbol state there calm busy => watched.cached symbol state there calm
      fun quiet => busy ?_⟩⟩
  · intro sought state there
    obtain ⟨before, was, expression, _⟩ := of_get?_restrengthened there
    rw [expression]
    exact catalogued.expression sought before was
  · intro sought state there
    obtain ⟨before, was, expression, _⟩ := of_get?_restrengthened there
    rw [expression]
    exact catalogued.reduced sought before was
  · intro sought state there idle
    obtain ⟨before, was, _, markers, _⟩ := of_get?_restrengthened there
    rw [markers]
    exact catalogued.inactive sought before was ((isActive_congr markers).symm.trans idle)
  · intro sought state there id owned
    obtain ⟨before, was, _, markers, _⟩ := of_get?_restrengthened there
    rw [Constraint.Owns, markers] at owned
    exact catalogued.owned sought before was id owned
  · intro sought state there
    obtain ⟨before, was, _⟩ := of_get?_restrengthened there
    exact catalogued.key_below sought before was
  · intro is_priced sought state there
    obtain ⟨before, was, _, _, kept | changed⟩ := of_get?_restrengthened there
    · rw [kept]
      exact catalogued.weights is_priced sought before was
    · rw [changed]
      exact weight is_priced
  · intro sought other there is_active
    obtain ⟨before, was, expression, markers, _⟩ := of_get?_restrengthened there
    rw [expression]
    exact quiet sought before was ((isActive_congr markers).symm.trans is_active)

/-! ## Good standing afterwards -/

/-- Edits survive a change of a constraint that was issued. -/
theorem Editing.of_framed (editing : solver.Editing issued (fun _ => False) offset)
    (orderly : solver.Orderly kinds) (is_issued : issued key.id)
    (framed : Framed (fun id => id = key.id) solver after) :
    after.Editing issued (fun _ => False) offset := by
  refine editing.kept orderly after (fun symbol => edits_congr (aim_congr (framed.outline symbol)))
    (fun sought _ unissued fixed =>
      ⟨framed.constraints sought fun same => ?_, rfl, unissued, fixed⟩)
    (fun _ => False.elim) (fun id => editing.loose_of_moved orderly) ?_
    fun sought constraint found => ?_
  · rw [same] at unissued
    exact unissued is_issued
  · rw [framed.lastConstraint]
    exact editing.issued_below
  · by_cases same : sought.id = key.id
    · exact Or.inl (same ▸ is_issued)
    · rw [framed.constraints sought same] at found
      exact editing.claimed sought constraint found

section Standing

variable (standing : solver.Standing discipline kinds offset)
  (editing : solver.Editing issued (fun _ => False) offset) (is_issued : issued key.id)

include standing editing is_issued

theorem touched_of_framed (framed : Framed (fun id => id = key.id) solver after)
    (standing' : ∃ kinds, after.Standing discipline kinds offset) :
    Touched discipline issued key solver after := by
  obtain ⟨kinds', standing'⟩ := standing'
  exact ⟨framed.spares fun _ => And.right, kinds', offset, standing',
    editing.of_framed standing.toOrderly is_issued framed⟩

theorem touched_of_rejected {reason : Refusal}
    (rejected : Rejected discipline offset constraint solver reason after) :
    Touched discipline issued key solver after :=
  touched_of_framed standing editing is_issued ⟨rejected.identity, rejected.lastConstraint,
    rejected.autoUpdate, rejected.outline, fun sought _ => rejected.constraints sought id⟩
    rejected.standing

end Standing

/-- Edits survive another price. -/
theorem Editing.restrengthened {loose : Nat → Prop} (editing : solver.Editing issued loose offset)
    (same : SameBooks (fun _ => False) solver after)
    (soft : ∀ constraint, solver.constraints.get? key = some constraint →
      strength.isRequired = constraint.strength.isRequired) :
    (after.restrengthened key strength).Editing issued loose offset := by
  have edits : ∀ symbol sought target,
      (after.restrengthened key strength).Edits symbol sought target ↔
        solver.Edits symbol sought target :=
    fun symbol => edits_congr (aim_congr (same.outline symbol))
  have lookup : ∀ sought constraint, solver.constraints.get? sought = some constraint →
      ∃ state, (after.restrengthened key strength).constraints.get? sought = some state ∧
        state.expression = constraint.expression ∧ state.markers = constraint.markers ∧
          state.relation = constraint.relation ∧
            state.strength.isRequired = constraint.strength.isRequired := by
    intro sought constraint found
    refine ⟨_, by rw [get?_restrengthened, same.constraints, found, Option.map_some], ?_⟩
    split
    · rename_i is_key
      rw [solver.constraints.get?_congr is_key] at found
      exact ⟨rfl, rfl, rfl, soft constraint found⟩
    · exact ⟨rfl, rfl, rfl, rfl⟩
  refine ⟨fun symbol sought target is_edit => ?_, fun sought is_loose => ?_, fun id moved => ?_, ?_,
    fun sought constraint found => ?_⟩
  · obtain ⟨⟨constraint, found, pulls, at_target⟩, apart⟩ :=
      editing.pulled symbol sought target ((edits symbol sought target).mp is_edit)
    obtain ⟨state, there, expression, markers, relation, required⟩ := lookup sought constraint found
    refine ⟨⟨state, there, ⟨(isActive_congr markers).trans pulls.active,
      relation.trans pulls.relation, required.trans pulls.soft, ?_⟩, ?_⟩, apart⟩
    · rw [expression]
      exact pulls.expression
    · rw [expression]
      exact at_target
  · obtain ⟨unissued, constraint, found, is_soft⟩ := editing.loosened sought is_loose
    obtain ⟨state, there, _, _, _, required⟩ := lookup sought constraint found
    exact ⟨unissued, state, there, required.trans is_soft⟩
  · rcases editing.settled id moved with is_loose | ⟨symbol, sought, target, is_edit, named⟩
    · exact Or.inl is_loose
    · exact Or.inr ⟨symbol, sought, target, (edits symbol sought target).mpr is_edit, named⟩
  · exact fun id is_issued => (editing.issued_below id is_issued).trans_eq same.lastConstraint.symm
  · rw [get?_restrengthened, same.constraints] at found
    obtain ⟨before, was, _⟩ := Option.map_eq_some_iff.mp found
    refine (editing.claimed sought before was).imp_right (Or.imp_right ?_)
    rintro ⟨symbol, hidden, target, is_edit, named⟩
    exact ⟨symbol, hidden, target, (edits symbol hidden target).mpr is_edit, named⟩

/-- Charging the price of an active constraint, before anything else is done. -/
theorem Standing.repriced (standing : solver.Standing discipline kinds offset)
    (found : solver.constraints.get? key = some constraint) (active : constraint.isActive = true)
    (same : strength.isRequired = constraint.strength.isRequired) :
    Worked kinds (fun _ => False)
        ({ constraint.lowered (offset key.id) with strength } ::
          (solver.constraints.erase key).ledger offset)
        ({ constraint.lowered (offset key.id) with strength } ::
          (solver.constraints.erase key).ledger offset) solver
        (solver.adopt (solver.tableau.charge constraint.markers.errors
          (strength.weight - constraint.strength.weight))) ∧
      Ledger.Regular kinds ({ constraint.lowered (offset key.id) with strength } ::
        (solver.constraints.erase key).ledger offset) := by
  have split := Catalog.ledger_perm_cons found active offset
  have entries := standing.entries.perm split
  have tells : solver.tableau.Tells kinds (fun _ => False)
      (solver.tableau.charge constraint.markers.errors
        (strength.weight - constraint.strength.weight)) :=
    ⟨fun _ => id, fun _ _ _ => Or.inl rfl, fun _ => Or.inl⟩
  exact ⟨standing.bench.adopt tells ((standing.stands.perm split split).reprice entries.head
    strength), entries.with_strength same⟩

end Solver

namespace Action

open Solver

variable {handle : ConstraintHandle}

/-- Changing the price of an active constraint, all but the note of its strength. -/
theorem leads_reprice (standing : solver.Standing discipline kinds offset)
    (found : solver.constraints.get? key = some constraint) (active : constraint.isActive = true)
    (same : strength.isRequired = constraint.strength.isRequired)
    (weight : discipline.priced → 0 ≤ strength.weight) :
    (do
      rework fun tableau => tableau.charge constraint.markers.errors
        (strength.weight - constraint.strength.weight)
      optimize
      refreshIfAutomatic : Action Rat Unit).Leads solver fun _ after =>
        (after.restrengthened key strength).Standing discipline kinds offset ∧
          SameBooks (fun _ => False) solver after := by
  have split := Catalog.ledger_perm_cons found active offset
  obtain ⟨worked, entries⟩ := standing.repriced found active same
  have upright : (solver.adopt (solver.tableau.charge constraint.markers.errors
      (strength.weight - constraint.strength.weight))).tableau.Upright discipline := by
    rw [adopt_tableau]
    exact ⟨standing.restful.grounded, standing.restful.feasible⟩
  have weights : discipline.priced →
      Ledger.Priced ({ constraint.lowered (offset key.id) with strength } ::
        (solver.constraints.erase key).ledger offset) := by
    intro is_priced
    refine List.forall_mem_cons.mpr ⟨weight is_priced, fun entry member => ?_⟩
    exact standing.toCatalogued.priced is_priced entry
      (split.mem_iff.mpr (List.mem_cons_of_mem _ member))
  refine Yields.rework_bind (Yields.weaken (leads_settle worked.bench
    (fun _ => False.elim : Ledger.Silent kinds (fun _ => False) _) entries weights upright) ?_)
  rintro _ after ⟨worked', restful⟩
  have all := worked.trans worked'
  have catalogued := standing.toCatalogued.of_sameBooks all.toSameBooks
    (congrArg SymbolSupply.last all.symbols).ge
  refine ⟨catalogued.restrengthened (all.constraints ▸ found) active same weight ?_ restful
    (all.watched standing.watched), all.toSameBooks⟩
  rw [all.constraints]
  exact all.bench

/-- Activating a constraint that was issued. -/
theorem touches_activate (sound : solver.Settled discipline issued) (is_issued : issued key.id)
    (found : solver.constraints.get? key = some constraint)
    (inactive : constraint.isActive = false) :
    (activate key).Yields solver (fun _ after => Touched discipline issued key solver after)
      (fun _ after => Touched discipline issued key solver after) := by
  obtain ⟨kinds, offset, standing, editing⟩ := sound
  have settled := editing.offset_eq_zero standing.toOrderly is_issued
  exact (yields_activate standing found inactive settled).mono
    (fun _ _ activated => touched_of_framed standing editing is_issued activated.toFramed
      activated.standing)
    fun _ _ rejected => touched_of_rejected standing editing is_issued rejected

/-- Deactivating a constraint that was issued. -/
theorem touches_deactivate (sound : solver.Settled discipline issued) (is_issued : issued key.id)
    (kept : discipline.steady → ¬ solver.IsFirm key) :
    (deactivate key : Action Rat Unit).Leads solver fun _ after =>
      Touched discipline issued key solver after ∧
        after.constraints.get? key = (solver.constraints.get? key).map fun state =>
          { state with markers := Markers.absent } := by
  obtain ⟨kinds, offset, standing, editing⟩ := sound
  refine Yields.weaken (leads_deactivate standing (fun steady constraint found active both =>
    kept steady ⟨constraint, found, active, both⟩) fun _ _ => rfl) ?_
  rintro _ after deactivated
  exact ⟨touched_of_framed standing editing is_issued deactivated.toFramed
    ⟨kinds, deactivated.toStanding⟩, deactivated.found⟩

/-- Changing the price of an active constraint. -/
theorem leads_price (sound : solver.Settled discipline issued)
    (found : solver.constraints.get? key = some constraint) (active : constraint.isActive = true)
    (same : strength.isRequired = constraint.strength.isRequired)
    (weight : discipline.priced → 0 ≤ strength.weight) :
    (do
      rework fun tableau => tableau.charge constraint.markers.errors
        (strength.weight - constraint.strength.weight)
      optimize
      refreshIfAutomatic : Action Rat Unit).Leads solver fun _ after =>
        Touched discipline issued key solver (after.restrengthened key strength) := by
  obtain ⟨kinds, offset, standing, editing⟩ := sound
  refine Yields.weaken (leads_reprice standing found active same weight) ?_
  rintro _ after ⟨standing', books⟩
  refine ⟨⟨books.identity, books.lastConstraint, books.autoUpdate, fun sought spared => ?_,
    fun symbol sought target => (edits_congr (aim_congr (books.outline symbol)) sought target).mp⟩,
    kinds, offset, standing', editing.restrengthened books fun constraint' there => ?_⟩
  · have elsewhere : sought.id ≠ key.id := spared.2
    rw [get?_restrengthened, books.constraints]
    simp [elsewhere]
  · rw [found] at there
    rw [← Option.some.inj there]
    exact same

/-- A constraint that takes no part gets another strength. -/
theorem touched_restrengthened (sound : solver.Settled discipline issued)
    (is_issued : issued key.id) (found : solver.constraints.get? key = some constraint)
    (inactive : constraint.isActive = false) (weight : discipline.priced → 0 ≤ strength.weight) :
    Touched discipline issued key solver (solver.restrengthened key strength) := by
  refine ⟨⟨rfl, rfl, rfl, fun sought spared => ?_, fun _ _ _ => id⟩, sound.rewrite is_issued found
    inactive _ fun _ dormant => dormant.with_strength weight⟩
  have elsewhere : sought.id ≠ key.id := spared.2
  rw [get?_restrengthened]
  simp [elsewhere]

/-- A constraint that takes no part gets another strength and is activated. -/
theorem touches_activate_restrengthened (sound : solver.Settled discipline issued)
    (is_issued : issued key.id) (found : solver.constraints.get? key = some constraint)
    (inactive : constraint.isActive = false) (weight : discipline.priced → 0 ≤ strength.weight) :
    (activate key).Yields (solver.restrengthened key strength)
      (fun _ after => Touched discipline issued key solver after)
      (fun _ after => Touched discipline issued key solver after) := by
  have rewritten := touched_restrengthened sound is_issued found inactive weight
  have lookup : (solver.restrengthened key strength).constraints.get? key =
      some { constraint with strength } := by
    rw [get?_restrengthened, found, Option.map_some, if_pos rfl]
  exact (touches_activate rewritten.settled is_issued lookup inactive).mono
    (fun _ _ => rewritten.trans) fun _ _ => rewritten.trans

/-- A constraint gets another strength. A required equality must not be taken out for it if the
discipline forbids that. -/
theorem yields_changeStrength (sound : solver.Settled discipline issued)
    (weight : discipline.priced → 0 ≤ strength.weight)
    (apart : issued key.id ∨ ∀ constraint, solver.constraints.get? key = some constraint →
      constraint.isActive = true ∧ constraint.strength.isRequired = false ∧
        strength.isRequired = false)
    (kept : discipline.steady → ∀ constraint, solver.constraints.get? key = some constraint →
      solver.IsFirm key → (constraint.strength == strength) = true) :
    (changeStrength key strength).Yields solver
      (fun _ after => Touched discipline issued key solver after)
      (fun _ after => Touched discipline issued key solver after) := by
  have unchanged : Touched discipline issued key solver solver := ⟨.refl _ _, sound⟩
  refine Yields.read_bind ?_
  cases found : solver.constraints.get? key with
  | none => exact Yields.refuse unchanged
  | some constraint =>
      dsimp only
      split
      · exact Yields.pure unchanged
      · rename_i differs
        split
        -- A change to or from required takes the constraint out and adds it again.
        · rename_i required
          have is_issued : issued key.id := by
            refine apart.resolve_right fun soft => ?_
            obtain ⟨_, soft, soft'⟩ := soft constraint found
            rw [soft, soft'] at required
            exact Bool.noConfusion required
          split
          · rename_i active
            refine Yields.bind_of_leads (touches_deactivate sound is_issued fun steady firm =>
              differs (kept steady constraint found firm)) ?_
            rintro _ between ⟨touched, there⟩
            rw [found, Option.map_some] at there
            refine Yields.update_bind ?_
            exact (touches_activate_restrengthened touched.settled is_issued there rfl weight).mono
              (fun _ _ => touched.trans) fun _ _ => touched.trans
          · rename_i inactive
            rw [Bool.not_eq_true] at inactive
            exact Yields.update_bind
              (touches_activate_restrengthened sound is_issued found inactive weight)
        · rename_i soft
          rw [Bool.not_eq_true, Bool.or_eq_false_iff] at soft
          have same := soft.2.trans soft.1.symm
          split
          · rename_i active
            refine Yields.bind_of_leads_three (leads_price sound found active same weight) ?_
            exact fun after touched => Yields.update touched
          · rename_i inactive
            refine Yields.update (touched_restrengthened sound (apart.resolve_right fun soft => ?_)
              found (by simpa using inactive) weight)
            exact inactive (soft constraint found).1

/-! ## Commands -/

theorem yields_setStrength (sound : solver.Settled discipline issued)
    (own : solver.Issued issued handle) (weight : discipline.priced → 0 ≤ strength.weight)
    (kept : discipline.steady → ∀ constraint, solver.findConstraint handle = .ok constraint →
      solver.IsFirm handle.key → (constraint.strength == strength.orRequired) = true) :
    (setStrength handle strength).Yields solver
      (fun _ after => after.Settled discipline issued)
      (fun _ after => after.Settled discipline issued) := by
  refine Yields.read_bind (Yields.demand_bind (fun constraint is_constraint => ?_) fun _ _ => sound)
  obtain ⟨owned, found⟩ := of_findConstraint is_constraint
  refine (yields_changeStrength sound (fun is_priced => Strength.orRequired_nonneg
    (weight is_priced)) (Or.inl (own owned)) fun steady constraint' there firm => ?_).mono
      (fun _ _ => Touched.settled) fun _ _ => Touched.settled
  rw [found] at there
  rw [← Option.some.inj there]
  exact kept steady constraint is_constraint firm

theorem yields_addConstraint (sound : solver.Settled discipline issued)
    (own : solver.Issued issued handle) :
    (addConstraint handle : Action Rat Unit).Yields solver
      (fun _ after => after.Settled discipline issued)
      (fun _ after => after.Settled discipline issued) := by
  refine Yields.read_bind (Yields.demand_bind (fun constraint is_constraint => ?_) fun _ _ => sound)
  obtain ⟨owned, found⟩ := of_findConstraint is_constraint
  split
  · exact Yields.refuse sound
  · rename_i inactive
    exact (touches_activate sound (own owned) found (by simpa using inactive)).mono
      (fun _ _ => Touched.settled) fun _ _ => Touched.settled

/-- Taking a constraint out. -/
theorem leads_withdrawConstraint (sound : solver.Settled discipline issued)
    (own : solver.Issued issued handle)
    (kept : discipline.steady → handle.owner = solver.identity → ¬ solver.IsFirm handle.key) :
    (withdrawConstraint handle : Action Rat Unit).Leads solver fun _ after =>
      Touched discipline issued handle.key solver after ∧ (handle.owner = solver.identity →
        after.constraints.get? handle.key = (solver.constraints.get? handle.key).map fun state =>
          { state with markers := Markers.absent }) := by
  refine Yields.read_bind ?_
  cases is_constraint : solver.findConstraint handle with
  | ok constraint =>
      obtain ⟨owned, _⟩ := of_findConstraint is_constraint
      exact Yields.weaken (touches_deactivate sound (own owned) fun steady => kept steady owned)
        fun _ _ both => ⟨both.1, fun _ => both.2⟩
  | error reason =>
      refine Yields.pure ⟨.refl sound handle.key, fun owned => ?_⟩
      rw [get?_of_findConstraint_eq_error owned is_constraint]
      rfl

/-- Wiping a constraint out. It stays registered and takes no part. -/
theorem leads_eraseConstraint (sound : solver.Settled discipline issued)
    (own : solver.Issued issued handle)
    (kept : discipline.steady → handle.owner = solver.identity → ¬ solver.IsFirm handle.key) :
    (eraseConstraint handle : Action Rat Unit).Leads solver fun _ after =>
      Touched discipline issued handle.key solver after ∧ (handle.owner = solver.identity →
        ∀ constraint, after.constraints.get? handle.key = some constraint →
          constraint.isActive = false) := by
  refine Yields.read_bind ?_
  cases is_constraint : solver.findConstraint handle with
  | error reason =>
      refine Yields.pure ⟨.refl sound handle.key, fun owned constraint found => ?_⟩
      rw [get?_of_findConstraint_eq_error owned is_constraint] at found
      exact absurd found.symm (Option.some_ne_none constraint)
  | ok constraint =>
      obtain ⟨owned, found⟩ := of_findConstraint is_constraint
      refine Yields.bind (touches_deactivate sound (own owned) fun steady => kept steady owned) ?_
      rintro _ between ⟨touched, there⟩
      rw [found, Option.map_some] at there
      refine Yields.read_bind ?_
      rw [there]
      refine Yields.bind (leads_replaceConstraint touched.settled (own owned) there rfl _
        fun _ dormant => dormant.erased) ?_
      rintro _ wiped ⟨touched', written⟩
      refine Yields.weaken (Yields.forM (fun after => after.Settled discipline issued ∧
        Spares issued wiped after) (fun term _ before going => ?_) ⟨touched'.settled, .refl _ _⟩) ?_
      · exact Yields.weaken (leads_releaseVariable going.1 _) fun _ after released =>
          ⟨released.1, going.2.trans released.2⟩
      · rintro _ after ⟨settled, spares⟩
        refine ⟨(touched.trans touched').then settled spares, fun _ constraint there => ?_⟩
        rw [spares.constraints handle.key (own owned), written] at there
        rw [← Option.some.inj there]
        rfl

/-- Removing a constraint altogether. -/
theorem leads_discardConstraint (sound : solver.Settled discipline issued)
    (own : solver.Issued issued handle)
    (kept : discipline.steady → handle.owner = solver.identity → ¬ solver.IsFirm handle.key) :
    (discardConstraint handle : Action Rat Unit).Leads solver fun _ after =>
      Touched discipline issued handle.key solver after ∧ (handle.owner = solver.identity →
        after.constraints.get? handle.key = none) := by
  refine Yields.read_bind ?_
  cases is_constraint : solver.findConstraint handle with
  | ok constraint =>
      obtain ⟨owned, _⟩ := of_findConstraint is_constraint
      refine Yields.weaken (leads_removeConstraint sound (Or.inr (own owned))
        fun steady => kept steady owned) fun _ _ all => ?_
      exact ⟨⟨all.2.1, all.1.congr fun id => ⟨False.elim, And.left⟩⟩,
        fun _ => all.2.2 (own owned)⟩
  | error reason =>
      exact Yields.pure ⟨.refl sound handle.key,
        fun owned => get?_of_findConstraint_eq_error owned is_constraint⟩

end Action

end SoftSimplex
