import Mathlib.Algebra.Order.Field.Rat
import SoftSimplex.Proofs.Solver.References

/-!
# Creating and writing

Variables and constraints come into being without a trace in the tableau, and only constraints
that take no part are written. So everything up to activation is bookkeeping.
-/

namespace SoftSimplex

variable {discipline : Discipline} {kinds kinds' : Nat → Symbol.Kind} {offset : Nat → Rat}
  {solver after : Solver Rat} {issued issued' : Nat → Prop} {key : Symbol}
  {constraint : Constraint Rat}

namespace Solver.Dormant

variable {mark : Nat}

theorem blank {strength : Strength Rat} (weight : discipline.priced → 0 ≤ strength.weight) :
    Dormant discipline kinds mark (Constraint.blank strength) :=
  ⟨rfl, .ofConstant 0, .ofConstant 0, weight⟩

variable (dormant : Dormant discipline kinds mark constraint)

include dormant

theorem addTerm {symbol : Symbol} (external : symbol.Proper kinds ∧ symbol.isExternal = true)
    (below : symbol.id ≤ mark) (coefficient : Rat) :
    Dormant discipline kinds mark (constraint.addTerm symbol coefficient) :=
  ⟨dormant.absent, dormant.expression.plus (fun _ => ⟨external, below⟩) _,
    dormant.reduced.plus _ _, dormant.weight⟩

theorem addConstant (constant : Rat) :
    Dormant discipline kinds mark (constraint.addConstant constant) :=
  ⟨dormant.absent, dormant.expression, dormant.reduced, dormant.weight⟩

theorem addForm {form : LinearForm Rat}
    (spanned : form.Over fun symbol =>
      (symbol.Proper kinds ∧ symbol.isExternal = true) ∧ symbol.id ≤ mark) (factor : Rat) :
    Dormant discipline kinds mark (constraint.addForm form factor) :=
  ⟨dormant.absent, dormant.expression.plusMultiple spanned _, dormant.reduced.plusMultiple _ _,
    dormant.weight⟩

theorem relate (relation : Relation) :
    Dormant discipline kinds mark (constraint.relate relation) := by
  refine ⟨dormant.absent, ?_, ?_, dormant.weight⟩ <;>
    cases relation <;> simp only [Constraint.relate, Relation.leftSide]
  · exact dormant.expression.scale _
  · exact dormant.expression.scale _
  · exact dormant.expression
  · exact dormant.reduced.scale (by norm_num)
  · exact dormant.reduced.scale (by norm_num)
  · exact dormant.reduced

theorem erased : Dormant discipline kinds mark constraint.erased := by
  refine ⟨dormant.absent, fun term member => ?_, .cleared _, dormant.weight⟩
  change term ∈ constraint.expression.coefficients.clear.entries at member
  rw [SlotTable.entries_clear] at member
  exact absurd member List.not_mem_nil

theorem with_relation (relation : Option Relation) :
    Dormant discipline kinds mark { constraint with relation } :=
  ⟨dormant.absent, dormant.expression, dormant.reduced, dormant.weight⟩

theorem with_strength {strength : Strength Rat} (weight : discipline.priced → 0 ≤ strength.weight) :
    Dormant discipline kinds mark { constraint with strength } :=
  ⟨dormant.absent, dormant.expression, dormant.reduced, weight⟩

end Solver.Dormant

namespace Solver

/-- Nobody is loose between two commands. -/
abbrev Settled (discipline : Discipline) (issued : Nat → Prop) (solver : Solver Rat) : Prop :=
  solver.Sound discipline issued fun _ => False

/-- What takes no part may be rewritten. -/
theorem Standing.rewrite (standing : solver.Standing discipline kinds offset)
    (change : Constraint Rat → Constraint Rat)
    (inactive : ∀ constraint, solver.constraints.get? key = some constraint →
      constraint.isActive = false)
    (dormant : ∀ constraint, solver.constraints.get? key = some constraint →
      Dormant discipline kinds solver.symbols.last (change constraint)) :
    ({ solver with constraints := solver.constraints.modify key change } : Solver Rat).Standing
      discipline kinds offset := by
  have lookup : ∀ sought : Symbol, sought.id = key.id →
      (solver.constraints.modify key change).get? sought =
        (solver.constraints.get? key).map change := by
    intro sought same
    rw [Catalog.get?_modify, if_pos same, solver.constraints.get?_congr same]
  refine standing.rebooked { solver with constraints := solver.constraints.modify key change }
    rfl rfl rfl (fun symbol state there => ⟨state, there, rfl, rfl⟩) (fun sought other active =>
      ?_) fun sought other there => ?_
  · by_cases same : sought.id = key.id
    · dsimp only
      rw [lookup sought same, solver.constraints.get?_congr same]
      refine ⟨fun there => ?_, fun there => ?_⟩
      · obtain ⟨before, was, rfl⟩ := Option.map_eq_some_iff.mp there
        rw [(dormant before was).isActive] at active
        exact Bool.noConfusion active
      · rw [inactive other there] at active
        exact Bool.noConfusion active
    · dsimp only
      rw [Catalog.get?_modify, if_neg same]
  · dsimp only at there
    by_cases same : sought.id = key.id
    · rw [lookup sought same] at there
      obtain ⟨before, was, rfl⟩ := Option.map_eq_some_iff.mp there
      exact ⟨same.trans_le (standing.key_below key before was), fun _ => dormant before was⟩
    · rw [Catalog.get?_modify, if_neg same] at there
      exact ⟨standing.key_below sought other there, standing.toCatalogued.dormant there⟩

/-- A constraint that takes no part may be rewritten. -/
theorem Sound.rewrite (sound : solver.Settled discipline issued) (is_issued : issued key.id)
    (found : solver.constraints.get? key = some constraint) (inactive : constraint.isActive = false)
    (change : Constraint Rat → Constraint Rat)
    (dormant : ∀ {kinds offset}, solver.Standing discipline kinds offset →
      Dormant discipline kinds solver.symbols.last constraint →
        Dormant discipline kinds solver.symbols.last (change constraint)) :
    ({ solver with constraints := solver.constraints.modify key change } : Solver Rat).Settled
      discipline issued := by
  obtain ⟨kinds, offset, standing, editing⟩ := sound
  refine ⟨kinds, offset, ?_, ?_⟩
  · refine standing.rewrite change (fun other there => ?_) fun other there => ?_
    · obtain rfl := Option.some.inj (found.symm.trans there)
      exact inactive
    · obtain rfl := Option.some.inj (found.symm.trans there)
      exact dormant standing (standing.toCatalogued.dormant found inactive)
  · refine editing.kept standing.toOrderly _ (fun _ _ _ => Iff.rfl) (fun sought _ unissued fixed =>
      ⟨?_, rfl, unissued, fixed⟩) (fun _ => False.elim)
      (fun id => editing.loose_of_moved standing.toOrderly) editing.issued_below
      fun sought other there => ?_
    · dsimp only
      rw [Catalog.get?_modify, if_neg]
      intro same
      rw [same] at unissued
      exact unissued is_issued
    · dsimp only at there
      by_cases same : sought.id = key.id
      · exact Or.inl (same ▸ is_issued)
      · rw [Catalog.get?_modify, if_neg same] at there
        exact editing.claimed sought other there

theorem Standing.create (standing : solver.Standing discipline kinds offset)
    {strength : Strength Rat} (weight : discipline.priced → 0 ≤ strength.weight)
    (named : key.id = solver.lastConstraint + 1) :
    ({ solver with
      lastConstraint := solver.lastConstraint + 1
      constraints := solver.constraints.insert key (Constraint.blank strength) } :
        Solver Rat).Standing discipline kinds offset := by
  refine standing.rebooked _ rfl rfl rfl (fun symbol state there => ⟨state, there, rfl, rfl⟩)
    (fun sought other active => ?_) fun sought other there => ?_
  · dsimp only
    rw [Catalog.get?_insert]
    split
    · rename_i same
      refine ⟨fun equal => ?_, fun found => ?_⟩
      · rw [← Option.some.inj equal] at active
        exact Bool.noConfusion active
      · have below := standing.key_below sought other found
        omega
    · rfl
  · dsimp only at there ⊢
    rw [Catalog.get?_insert] at there
    split at there
    · rename_i same
      obtain rfl := Option.some.inj there
      exact ⟨(same.trans named).le, fun _ => .blank weight⟩
    · exact ⟨(standing.key_below sought other there).trans (Nat.le_succ _),
        standing.toCatalogued.dormant there⟩

/-- A new constraint takes a number that nobody has had. -/
theorem Sound.create (sound : solver.Settled discipline issued) {strength : Strength Rat}
    (weight : discipline.priced → 0 ≤ strength.weight)
    (now_issued : ∀ id, issued' id ↔ issued id ∨ id = solver.lastConstraint + 1)
    (named : key.id = solver.lastConstraint + 1) :
    ({ solver with
      lastConstraint := solver.lastConstraint + 1
      constraints := solver.constraints.insert key (Constraint.blank strength) } :
        Solver Rat).Settled discipline issued' := by
  obtain ⟨kinds, offset, standing, editing⟩ := sound
  refine ⟨kinds, offset, standing.create weight named, ?_⟩
  refine editing.kept standing.toOrderly _ (fun _ _ _ => Iff.rfl) (fun sought below unissued
    fixed => ⟨?_, rfl, fun is_issued => ?_, id⟩) (fun _ => False.elim) (fun id => ?_)
    (fun id is_issued => ?_) fun sought other there => ?_
  · dsimp only
    rw [Catalog.get?_insert, if_neg (by omega)]
  · exact ((now_issued _).mp is_issued).elim unissued (by omega)
  · exact editing.loose_of_moved standing.toOrderly
  · rcases (now_issued id).mp is_issued with before | rfl
    · exact (editing.issued_below id before).trans (Nat.le_succ _)
    · exact le_rfl
  · dsimp only at there
    rw [Catalog.get?_insert] at there
    split at there
    · rename_i same
      exact Or.inl ((now_issued _).mpr (Or.inr (same.trans named)))
    · exact (editing.claimed sought other there).imp_left fun before =>
        (now_issued _).mpr (Or.inl before)

/-- No constraint mentions a symbol that is yet to be drawn. -/
theorem Orderly.quiet_above (orderly : solver.Orderly kinds) {id : Nat}
    (above : solver.symbols.last < id) : solver.Quiet id := by
  refine fun key constraint found _ => (orderly.expression key constraint found).mono
    fun symbol both same => ?_
  have below := both.2
  omega

theorem Standing.rekind (standing : solver.Standing discipline kinds offset)
    (agree : ∀ id, id ≠ 0 → id ≤ solver.symbols.last → kinds' id = kinds id) :
    solver.Standing discipline kinds' offset :=
  have below := standing.toOrderly.below offset
  ⟨standing.toCatalogued.rekind agree,
    standing.stands.rekind below below agree standing.restful.idle, standing.untouched,
    standing.restful, standing.watched⟩

/-- The solver with one variable more. -/
def grown (solver : Solver Rat) : Solver Rat :=
  { solver with
    symbols := ⟨solver.symbols.last + 1⟩
    unknowns := solver.unknowns.insert ⟨solver.symbols.last + 1, .external⟩ Variable.fresh }

theorem get?_grown (solver : Solver Rat) (sought : Symbol) : solver.grown.unknowns.get? sought =
    if sought.id = solver.symbols.last + 1 then some Variable.fresh
    else solver.unknowns.get? sought :=
  Catalog.get?_insert _ _ _ _

theorem Sound.grown (sound : solver.Settled discipline issued) :
    solver.grown.Settled discipline issued := by
  obtain ⟨kinds, offset, standing, editing⟩ := sound
  have agree : ∀ id, id ≠ 0 → id ≤ solver.symbols.last →
      Function.update kinds (solver.symbols.last + 1) .external id = kinds id :=
    fun id _ below => Function.update_of_ne (by omega) _ _
  have rekinded := standing.rekind agree
  refine ⟨_, offset, ⟨⟨⟨?_, ?_, ?_, rekinded.reduced, rekinded.inactive, ?_, rekinded.key_below⟩,
    rekinded.entries, rekinded.weights⟩, rekinded.stands, rekinded.untouched, rekinded.restful,
      ?_, ?_⟩, ?_⟩
  · intro symbol state found
    rw [get?_grown] at found
    split at found
    · rename_i is_new
      rw [is_new]
      exact ⟨Nat.succ_ne_zero _, Function.update_self _ _ _⟩
    · exact rekinded.registers symbol state found
  · intro symbol state found
    rw [get?_grown] at found
    split at found
    · rename_i is_new
      exact is_new.le
    · exact (rekinded.variable_below symbol state found).trans (Nat.le_succ _)
  · exact fun sought constraint found => (rekinded.expression sought constraint found).mono
      fun _ both => ⟨both.1, both.2.trans (Nat.le_succ _)⟩
  · exact fun sought constraint found id owned =>
      (rekinded.owned sought constraint found id owned).trans (Nat.le_succ _)
  · intro symbol state found is_stale
    rw [get?_grown] at found
    split at found
    · rw [← Option.some.inj found] at is_stale
      exact Bool.noConfusion is_stale
    · exact standing.watched.queued symbol state found is_stale
  · intro symbol state found calm busy
    rw [get?_grown] at found
    split at found
    · rename_i is_new
      exact absurd (standing.toOrderly.quiet_above (by omega)) busy
    · exact standing.watched.cached symbol state found calm busy
  · refine editing.kept standing.toOrderly _ (fun symbol sought target => exists_congr fun state =>
      ?_) (fun sought _ unissued fixed => ⟨rfl, rfl, unissued, fixed⟩) (fun _ => False.elim)
      (fun id => editing.loose_of_moved standing.toOrderly) editing.issued_below editing.claimed
    rw [get?_grown]
    split
    · rename_i is_new
      refine ⟨fun both => ?_, fun both => ?_⟩
      · rw [← Option.some.inj both.1] at both
        exact absurd both.2.1.symm (Option.some_ne_none _)
      · have below := standing.variable_below symbol state both.1
        omega
    · rfl

/-- Numbers without a constraint need not count as issued. -/
theorem Editing.fewer {loose : Nat → Prop} (editing : solver.Editing issued' loose offset)
    (within : ∀ id, issued id → issued' id)
    (registered : ∀ key constraint, solver.constraints.get? key = some constraint →
      issued' key.id → issued key.id) : solver.Editing issued loose offset := by
  refine ⟨fun symbol key target edits => ?_, fun key is_loose => ?_, editing.settled,
    fun id is_issued => editing.issued_below id (within id is_issued), fun key constraint found =>
      (editing.claimed key constraint found).imp_left (registered key constraint found)⟩
  · obtain ⟨pulls, unissued, fixed⟩ := editing.pulled symbol key target edits
    exact ⟨pulls, mt (within _) unissued, fixed⟩
  · obtain ⟨unissued, soft⟩ := editing.loosened key is_loose
    exact ⟨mt (within _) unissued, soft⟩

theorem Sound.fewer {loose : Nat → Prop} (sound : solver.Sound discipline issued' loose)
    (within : ∀ id, issued id → issued' id)
    (registered : ∀ key constraint, solver.constraints.get? key = some constraint →
      issued' key.id → issued key.id) : solver.Sound discipline issued loose := by
  obtain ⟨kinds, offset, standing, editing⟩ := sound
  exact ⟨kinds, offset, standing, editing.fewer within registered⟩

/-! ## Handles -/

section Handles

variable {α : Type} {solver : Solver α} {constraint : Constraint α}

theorem of_findVariable {handle : VariableHandle} {state : Variable α}
    (found : solver.findVariable handle = .ok state) :
    handle.owner = solver.identity ∧ solver.unknowns.get? handle.symbol = some state := by
  unfold findVariable at found
  split at found
  · rename_i owned
    split at found
    · rename_i there
      exact ⟨owned, there.trans (congrArg some (Except.ok.inj found))⟩
    · contradiction
  · contradiction

theorem findVariable_of_get? {handle : VariableHandle} {state : Variable α}
    (owned : handle.owner = solver.identity)
    (registered : solver.unknowns.get? handle.symbol = some state) :
    solver.findVariable handle = .ok state := by
  simp only [findVariable, owned, if_true, registered]

theorem of_findConstraint {handle : ConstraintHandle}
    (found : solver.findConstraint handle = .ok constraint) :
    handle.owner = solver.identity ∧ solver.constraints.get? handle.key = some constraint := by
  unfold findConstraint at found
  split at found
  · rename_i owned
    split at found
    · rename_i there
      exact ⟨owned, there.trans (congrArg some (Except.ok.inj found))⟩
    · contradiction
  · contradiction

/-- Nothing bears the number of a handle of this solver that names no constraint. -/
theorem get?_of_findConstraint_eq_error {handle : ConstraintHandle} {reason : Refusal}
    (owned : handle.owner = solver.identity)
    (unknown : solver.findConstraint handle = .error reason) :
    solver.constraints.get? handle.key = none := by
  unfold findConstraint at unknown
  rw [if_pos owned] at unknown
  split at unknown
  · contradiction
  · assumption

theorem of_findInactive {handle : ConstraintHandle}
    (found : solver.findInactive handle = .ok constraint) :
    handle.owner = solver.identity ∧ solver.constraints.get? handle.key = some constraint ∧
      constraint.isActive = false := by
  unfold findInactive at found
  split at found
  · rename_i there
    split at found
    · contradiction
    · rename_i inactive
      obtain rfl := Except.ok.inj found
      obtain ⟨owned, filed⟩ := of_findConstraint there
      exact ⟨owned, filed, by simpa using inactive⟩
  · contradiction

end Handles

theorem Standing.external_of_findVariable (standing : solver.Standing discipline kinds offset)
    {handle : VariableHandle} {state : Variable Rat}
    (found : solver.findVariable handle = .ok state) :
    (handle.symbol.Proper kinds ∧ handle.symbol.isExternal = true) ∧
      handle.symbol.id ≤ solver.symbols.last := by
  obtain ⟨_, registered⟩ := of_findVariable found
  obtain ⟨present, external⟩ := standing.registers _ state registered
  have proper : handle.symbol.Proper kinds := ⟨present, external.symm⟩
  exact ⟨⟨proper, (proper.isOf_iff .external).mpr external⟩,
    standing.variable_below _ state registered⟩

/-- A handle of this solver was issued by it. -/
def Issued (issued : Nat → Prop) (solver : Solver Rat) (handle : ConstraintHandle) : Prop :=
  handle.owner = solver.identity → issued handle.id

/-- A solver in good standing, in which of the constraints that were issued only the one under the
key may have changed. -/
structure Touched (discipline : Discipline) (issued : Nat → Prop) (key : Symbol)
    (solver after : Solver Rat) : Prop extends
    Spares (fun id => issued id ∧ id ≠ key.id) solver after where
  settled : after.Settled discipline issued

theorem Touched.refl (settled : solver.Settled discipline issued) (key : Symbol) :
    Touched discipline issued key solver solver :=
  ⟨.refl _ _, settled⟩

theorem Touched.trans {between : Solver Rat}
    (touched : Touched discipline issued key solver between)
    (touched' : Touched discipline issued key between after) :
    Touched discipline issued key solver after :=
  ⟨touched.toSpares.trans touched'.toSpares, touched'.settled⟩

theorem Touched.then {between : Solver Rat}
    (touched : Touched discipline issued key solver between)
    (settled : after.Settled discipline issued) (spares : Spares issued between after) :
    Touched discipline issued key solver after :=
  ⟨touched.toSpares.trans (spares.mono fun _ => And.left), settled⟩

/-- The constraint under the key was rewritten. -/
def Rewritten (key : Symbol) (change : Constraint Rat → Constraint Rat)
    (solver after : Solver Rat) : Prop :=
  ∃ constraint, solver.constraints.get? key = some constraint ∧ constraint.isActive = false ∧
    after.constraints.get? key = some (change constraint)

end Solver

namespace Strength

variable {strength : Strength Rat}

theorem orRequired_nonneg (weight : 0 ≤ strength.weight) : 0 ≤ strength.orRequired.weight := by
  unfold orRequired
  split
  · norm_num [required]
  · exact weight

end Strength

/-! ## Actions -/

namespace Action

open Solver

variable {handle source : ConstraintHandle}

theorem leads_createVariable (solver : Solver Rat) : (createVariable : Action Rat _).Leads solver
    fun _ after => after = solver.grown :=
  Yields.read_bind (Yields.update_bind (Yields.pure rfl))

theorem leads_createConstraint (solver : Solver Rat) (strength : Strength Rat) :
    (createConstraint strength).Leads solver fun handle after =>
      handle = ⟨solver.lastConstraint + 1, solver.identity⟩ ∧
        after = { solver with
          lastConstraint := solver.lastConstraint + 1
          constraints := solver.constraints.insert ⟨solver.lastConstraint + 1, .external⟩
            (Constraint.blank strength.orRequired) } :=
  Yields.read_bind (Yields.update_bind (Yields.pure ⟨rfl, rfl⟩))

theorem yields_shareVariable (sound : solver.Settled discipline issued) (handle : VariableHandle) :
    (shareVariable handle : Action Rat Unit).Yields solver
      (fun _ after => after.Settled discipline issued) (fun _ after => after = solver) := by
  refine Yields.read_bind (Yields.demand_bind (fun _ _ => Yields.update ?_) fun _ _ => rfl)
  exact (sound.modify_references handle.symbol Variable.retained (fun _ => ⟨rfl, rfl⟩)
    fun _ => rfl).1

theorem leads_giveUpVariable (sound : solver.Settled discipline issued) (handle : VariableHandle) :
    (giveUpVariable handle : Action Rat Unit).Leads solver
      fun _ after => after.Settled discipline issued := by
  refine Yields.read_bind ?_
  split
  · exact Yields.weaken (leads_releaseVariable sound handle.symbol) fun _ _ => And.left
  · exact Yields.pure sound

/-- Replacing what is known about a constraint that takes no part. -/
theorem leads_replaceConstraint (sound : solver.Settled discipline issued)
    (is_issued : issued handle.id) (found : solver.constraints.get? handle.key = some constraint)
    (inactive : constraint.isActive = false) (written : Constraint Rat)
    (dormant : ∀ {kinds offset}, solver.Standing discipline kinds offset →
      Dormant discipline kinds solver.symbols.last constraint →
        Dormant discipline kinds solver.symbols.last written) :
    (replaceConstraint handle written).Leads solver fun _ after =>
      Touched discipline issued handle.key solver after ∧ after.constraints.get? handle.key =
        some written := by
  refine Yields.update ⟨⟨⟨rfl, rfl, rfl, fun sought apart => ?_, fun _ _ _ => id⟩, ?_⟩, ?_⟩
  · have elsewhere : ¬ sought.id = handle.key.id := apart.2
    dsimp only
    rw [Catalog.get?_modify, if_neg elsewhere]
  · exact sound.rewrite is_issued found inactive _ dormant
  · dsimp only
    rw [Catalog.get?_modify, if_pos rfl, found]
    rfl

theorem yields_addTerm (sound : solver.Settled discipline issued)
    (own : solver.Issued issued handle) (inside : VariableHandle) (coefficient : Rat) :
    (addTerm handle inside coefficient).Yields solver
      (fun _ after => Touched discipline issued handle.key solver after ∧
        Rewritten handle.key (fun state => state.addTerm inside.symbol coefficient) solver after)
      (fun _ after => after = solver) := by
  refine Yields.read_bind (Yields.demand_bind (fun state is_state => ?_) fun _ _ => rfl)
  refine Yields.read_bind (Yields.demand_bind (fun constraint is_constraint => ?_) fun _ _ => rfl)
  obtain ⟨owned, found, inactive⟩ := of_findInactive is_constraint
  refine Yields.bind_of_leads (leads_replaceConstraint sound (own owned) found inactive _ ?_) ?_
  · intro kinds offset standing dormant
    obtain ⟨external, low⟩ := standing.external_of_findVariable is_state
    exact dormant.addTerm external low coefficient
  · rintro _ between ⟨touched, written⟩
    refine Yields.of_leads (leads_trackTerm touched.settled _ _ _) fun _ after tracked => ?_
    exact ⟨touched.then tracked.1 tracked.2, constraint, found, inactive,
      (tracked.2.constraints handle.key (own owned)).trans written⟩

theorem yields_addConstant (sound : solver.Settled discipline issued)
    (own : solver.Issued issued handle) (constant : Rat) :
    (addConstant handle constant).Yields solver
      (fun _ after => Touched discipline issued handle.key solver after ∧
        Rewritten handle.key (fun state => state.addConstant constant) solver after)
      (fun _ after => after = solver) := by
  refine Yields.read_bind (Yields.demand_bind (fun constraint is_constraint => ?_) fun _ _ => rfl)
  obtain ⟨owned, found, inactive⟩ := of_findInactive is_constraint
  exact Yields.of_leads (leads_replaceConstraint sound (own owned) found inactive _
    fun _ dormant => dormant.addConstant constant)
      fun _ _ both => ⟨both.1, constraint, found, inactive, both.2⟩

theorem yields_setRelation (sound : solver.Settled discipline issued)
    (own : solver.Issued issued handle) (relation : Relation) :
    (setRelation handle relation : Action Rat Unit).Yields solver
      (fun _ after => Touched discipline issued handle.key solver after ∧
        Rewritten handle.key (fun state => state.relate relation) solver after)
      (fun _ after => after = solver) := by
  refine Yields.read_bind (Yields.demand_bind (fun constraint is_constraint => ?_) fun _ _ => rfl)
  obtain ⟨owned, found, inactive⟩ := of_findInactive is_constraint
  split
  · exact Yields.refuse rfl
  · exact Yields.of_leads (leads_replaceConstraint sound (own owned) found inactive _
      fun _ dormant => dormant.relate relation)
        fun _ _ both => ⟨both.1, constraint, found, inactive, both.2⟩

/-- The constraint that is merged into stays without a part. -/
theorem leads_mergeConstraint {added : Constraint Rat} (sound : solver.Settled discipline issued)
    (is_added : solver.findConstraint source = .ok added)
    (is_constraint : solver.findInactive handle = .ok constraint) (is_issued : issued handle.id)
    (factor : Rat) :
    (mergeConstraint handle source factor).Leads solver fun _ after =>
      Touched discipline issued handle.key solver after ∧
        ∃ constraint, after.constraints.get? handle.key = some constraint ∧
          constraint.isActive = false := by
  refine Meets.read_bind (Meets.granted_bind is_added ?_)
  refine Meets.read_bind (Meets.granted_bind is_constraint ?_)
  obtain ⟨_, added_found⟩ := of_findConstraint is_added
  obtain ⟨_, found, inactive⟩ := of_findInactive is_constraint
  refine Yields.bind (leads_replaceConstraint sound is_issued found inactive _
    fun standing dormant => dormant.addForm (standing.expression _ _ added_found) factor) ?_
  rintro _ between ⟨touched, written⟩
  refine Yields.weaken (Yields.forM (fun after => after.Settled discipline issued ∧
    Spares issued between after) (fun term _ before going => ?_) ⟨touched.settled, .refl _ _⟩) ?_
  · refine Yields.weaken (leads_trackTerm going.1 _ _ _) fun _ after tracked => ?_
    exact ⟨tracked.1, going.2.trans tracked.2⟩
  · rintro _ after ⟨settled, spares⟩
    exact ⟨touched.then settled spares, _,
      (spares.constraints handle.key is_issued).trans written, inactive⟩

theorem yields_mergeConstraint (sound : solver.Settled discipline issued)
    (own : solver.Issued issued handle) (source : ConstraintHandle) (factor : Rat) :
    (mergeConstraint handle source factor).Yields solver
      (fun _ after => Touched discipline issued handle.key solver after)
      (fun _ after => after = solver) := by
  cases is_added : solver.findConstraint source with
  | error _ => exact Meets.read_bind (Meets.denied_bind is_added rfl)
  | ok added =>
      cases is_constraint : solver.findInactive handle with
      | error _ =>
          refine Meets.read_bind (Meets.granted_bind is_added ?_)
          exact Meets.read_bind (Meets.denied_bind is_constraint rfl)
      | ok constraint =>
          exact Yields.of_leads (leads_mergeConstraint sound is_added is_constraint
            (own (of_findInactive is_constraint).1) factor) fun _ _ => And.left

/-- A handle to a new constraint. -/
def Created (discipline : Discipline) (issued : Nat → Prop) (solver : Solver Rat)
    (handle : ConstraintHandle) (after : Solver Rat) : Prop :=
  handle = ⟨solver.lastConstraint + 1, solver.identity⟩ ∧
    after.Settled discipline fun id => issued id ∨ id = solver.lastConstraint + 1

theorem created_createConstraint (sound : solver.Settled discipline issued)
    {strength : Strength Rat} (weight : discipline.priced → 0 ≤ strength.weight) :
    (createConstraint strength).Leads solver (Created discipline issued solver) := by
  refine Yields.weaken (leads_createConstraint solver strength) ?_
  rintro handle after ⟨is_handle, rfl⟩
  exact ⟨is_handle, sound.create (fun is_priced => Strength.orRequired_nonneg (weight is_priced))
    (fun _ => Iff.rfl) rfl⟩

/-- The copy is there and idle, and so is still what is copied, so merging is not refused. -/
theorem yields_copyConstraint (sound : solver.Settled discipline issued)
    {strength : Strength Rat} (weight : discipline.priced → 0 ≤ strength.weight)
    (source : ConstraintHandle) :
    (copyConstraint source strength).Yields solver (Created discipline issued solver)
      (fun _ after => after.Settled discipline issued) := by
  refine Yields.read_bind (Yields.demand_bind (fun copied is_copied => ?_) fun _ _ => sound)
  obtain ⟨_, _, standing, _⟩ := id sound
  obtain ⟨owned, there⟩ := of_findConstraint is_copied
  have copied_weight : discipline.priced → 0 ≤ (if Scalar.negligible strength.weight then
      copied.strength else strength).weight := by
    intro is_priced
    split
    · exact standing.weights is_priced _ copied there
    · exact weight is_priced
  refine Yields.bind_of_leads (leads_createConstraint solver _) ?_
  rintro handle between ⟨rfl, is_created⟩
  have created : between.Settled discipline
      fun id => issued id ∨ id = solver.lastConstraint + 1 := by
    rw [is_created]
    exact sound.create (fun is_priced => Strength.orRequired_nonneg (copied_weight is_priced))
      (fun _ => Iff.rfl) rfl
  have still_there : between.findConstraint source = .ok copied := by
    have below := standing.key_below _ copied there
    unfold findConstraint
    simp only [is_created, owned, if_true]
    rw [Catalog.get?_insert, if_neg (by dsimp only; omega), there]
  have blank : ∃ constraint,
      between.findInactive ⟨solver.lastConstraint + 1, solver.identity⟩ = .ok constraint := by
    unfold findInactive findConstraint
    simp only [is_created, if_true, ConstraintHandle.key, Catalog.get?_insert]
    exact ⟨_, rfl⟩
  obtain ⟨_, is_blank⟩ := blank
  refine Yields.bind_of_leads (leads_mergeConstraint created still_there is_blank (Or.inr rfl) 1) ?_
  rintro _ merged ⟨touched, constraint, found, inactive⟩
  refine Yields.update_bind (Yields.pure ⟨rfl, ?_⟩)
  exact touched.settled.rewrite (Or.inr rfl) found inactive _
    fun _ dormant => dormant.with_relation _

end Action

end SoftSimplex
