import SoftSimplex.Proofs.Solver.Drafting
import SoftSimplex.Proofs.Solver.Participation

/-!
# Editing

Moving the target of an edit moves the expression of its hidden constraint in the ledger, and the
rows need only be repaired. An edit begins with a draft of the hidden constraint that is activated
at once, and is given up if that is refused. When an edit ends, its constraint is removed.
-/

namespace SoftSimplex

variable {discipline : Discipline} {kinds : Nat → Symbol.Kind} {offset : Nat → Rat}
  {solver between after : Solver Rat} {issued : Nat → Prop} {symbol key : Symbol}
  {constraint : Constraint Rat} {ledger : Ledger}

theorem Constraint.lowered_lowered (constraint : Constraint Rat) (first second : Rat) :
    (constraint.lowered first).lowered second = constraint.lowered (first + second) := by
  simp only [lowered, sub_sub]

/-- A constraint that may be missed can always be lowered. -/
theorem Ledger.Met.lowered {given : Assignment} (met : Ledger.Met (constraint :: ledger) given)
    (soft : constraint.strength.isRequired = false) (amount : Rat) :
    Ledger.Met (constraint.lowered amount :: ledger) given := by
  refine List.forall_mem_cons.mpr ⟨fun required => ?_, (List.forall_mem_cons.mp met).2⟩
  rw [show (constraint.lowered amount).strength = constraint.strength from rfl, soft] at required
  exact Bool.noConfusion required

/-- Moving the target of an equality in the tableau. -/
theorem Tableau.Elastic.stands_shift {tableau : Tableau Rat}
    (elastic : Tableau.Elastic kinds constraint)
    (stands : tableau.Stands kinds (constraint :: ledger) (constraint :: ledger))
    (entries : Ledger.Regular kinds (constraint :: ledger)) (amount : Rat) :
    (tableau.shift constraint.markers amount).Stands kinds
      (constraint.lowered amount :: ledger) (constraint.lowered amount :: ledger) where
  regular := stands.regular.shift _ _
  tidy := elastic.tidy_shift stands.tidy stands.regular amount
  means := elastic.means_shift stands.regular entries stands.means amount
  prices := elastic.prices_shift stands.regular entries stands.prices amount

namespace Solver

theorem Standing.met (standing : solver.Standing discipline kinds offset)
    (steady : discipline.steady) (priced : discipline.priced) :
    (solver.constraints.ledger offset).Met (solver.tableau.complete Assignment.zero) :=
  standing.stands.means.met standing.stands.regular standing.entries
    (standing.restful.feasible steady priced) (standing.restful.grounded steady)

/-- An active equality that may be missed. -/
theorem Standing.elastic (standing : solver.Standing discipline kinds offset)
    (found : solver.constraints.get? key = some constraint) (pulls : constraint.Pulls symbol) :
    Tableau.Elastic kinds (constraint.lowered (offset key.id)) :=
  ⟨(standing.entries.perm (Catalog.ledger_perm_cons found pulls.active offset)).head,
    pulls.relation, pulls.soft⟩

/-- Moving the target of an active equality, before anything else is done. -/
theorem Standing.shifted (standing : solver.Standing discipline kinds offset)
    (found : solver.constraints.get? key = some constraint) (pulls : constraint.Pulls symbol)
    (amount : Rat) :
    Worked kinds (fun _ => False)
      ((constraint.lowered (offset key.id)).lowered amount ::
        (solver.constraints.erase key).ledger offset)
      ((constraint.lowered (offset key.id)).lowered amount ::
        (solver.constraints.erase key).ledger offset) solver
      (solver.adopt (solver.tableau.shift constraint.markers amount)) := by
  have split := Catalog.ledger_perm_cons found pulls.active offset
  have stands := standing.stands.perm split split
  have elastic := standing.elastic found pulls
  exact standing.bench.adopt
    (Tableau.tells_shift elastic stands.regular (Tableau.heeds_nobody _) amount)
    (elastic.stands_shift stands (standing.entries.perm split) amount)

end Solver

namespace Action

open Solver

/-- Moving an active equality that may be missed. -/
theorem leads_shift (standing : solver.Standing discipline kinds offset)
    (found : solver.constraints.get? key = some constraint) (pulls : constraint.Pulls symbol)
    (amount : Rat) :
    (do
      rework fun tableau => tableau.shift constraint.markers amount
      repair
      refreshIfAutomatic : Action Rat Unit).Leads solver fun _ after =>
        SameBooks (fun _ => False) solver after ∧ after.Standing discipline kinds
          (Function.update offset key.id (offset key.id + amount)) := by
  have split := Catalog.ledger_perm_cons found pulls.active offset
  have entries := standing.entries.perm split
  have stands := standing.stands.perm split split
  have elastic := standing.elastic found pulls
  have worked := standing.shifted found pulls amount
  have grounded : discipline.steady → (solver.adopt (solver.tableau.shift constraint.markers
      amount)).tableau.Grounded fun _ => True := by
    intro steady
    rw [adopt_tableau]
    exact ((standing.restful.grounded steady).shift stands.regular elastic amount).alike
      (Tableau.alike_told _)
  -- An equality that may be missed excludes nothing, wherever its target is moved.
  have ready : discipline.steady → discipline.priced →
      (solver.adopt (solver.tableau.shift constraint.markers amount)).tableau.objective.Lowest ∧
      (solver.adopt (solver.tableau.shift constraint.markers amount)).tableau.Alert ∧
      ∃ given, Ledger.Met ((constraint.lowered (offset key.id)).lowered amount ::
        (solver.constraints.erase key).ledger offset) given := by
    intro steady priced
    obtain ⟨_, _, _, _, objective, _⟩ := elastic.solves_shift stands.regular amount
    have alert := (standing.restful.feasible steady priced).alert
      (standing.restful.grounded steady) stands.regular
    have met : Ledger.Met (_ :: _) _ := fun entry member => standing.met steady priced entry
      (split.mem_iff.mpr member)
    rw [adopt_tableau]
    exact ⟨objective ▸ standing.restful.lowest steady priced, alert.shift constraint.markers amount,
      _, met.lowered pulls.soft amount⟩
  refine Yields.rework_bind (Yields.bind (leads_repair worked.bench
    (fun _ => False.elim : Ledger.Silent kinds (fun _ => False) _) (entries.lowered amount) grounded
    ready) ?_)
  rintro _ between ⟨worked', restful⟩
  refine Yields.weaken (leads_refresh (worked.trans worked') restful) ?_
  rintro _ after ⟨settled, restful'⟩
  have perm : (((constraint.lowered (offset key.id)).lowered amount) ::
      (solver.constraints.erase key).ledger offset).Perm (solver.constraints.ledger
        (Function.update offset key.id (offset key.id + amount))) := by
    refine List.Perm.symm ?_
    have moved := Catalog.ledger_perm_cons found pulls.active
      (Function.update offset key.id (offset key.id + amount))
    rwa [Catalog.ledger_erase_update, Function.update_self,
      ← constraint.lowered_lowered] at moved
  have catalogued : solver.Catalogued discipline kinds
      (Function.update offset key.id (offset key.id + amount)) :=
    ⟨standing.toOrderly, (entries.lowered amount).perm perm, standing.weights⟩
  exact ⟨settled.toSameBooks, catalogued.standing standing.watched settled perm restful'⟩

end Action

namespace Solver

/-- The solver with another target for a variable. -/
def aimed (solver : Solver Rat) (symbol : Symbol) (target : Rat) : Solver Rat :=
  { solver with unknowns := solver.unknowns.modify symbol fun state => { state with target } }

theorem Standing.aimed (standing : solver.Standing discipline kinds offset) (symbol : Symbol)
    (target : Rat) : (solver.aimed symbol target).Standing discipline kinds offset := by
  have keeps : ∀ state : Variable Rat, ({ state with target } : Variable Rat).isStale =
      state.isStale ∧ ({ state with target } : Variable Rat).value = state.value :=
    fun _ => ⟨rfl, rfl⟩
  exact standing.with_unknowns _ fun _ _ => registered_modify keeps

/-- The edits after a change of one variable. -/
theorem edits_modify_iff (solver : Solver Rat) (symbol : Symbol)
    (change : Variable Rat → Variable Rat) (sought key : Symbol) (target : Rat) :
    ({ solver with unknowns := solver.unknowns.modify symbol change } : Solver Rat).Edits sought key
        target ↔
      if sought.id = symbol.id then ∃ state, solver.unknowns.get? sought = some state ∧
        (change state).edit = some key ∧ (change state).target = target
      else solver.Edits sought key target := by
  unfold Edits
  rw [Catalog.get?_modify]
  split
  · constructor
    · rintro ⟨_, there, edit, aims⟩
      obtain ⟨before, was, rfl⟩ := Option.map_eq_some_iff.mp there
      exact ⟨before, was, edit, aims⟩
    · rintro ⟨before, was, edit, aims⟩
      exact ⟨_, Option.map_eq_some_iff.mpr ⟨before, was, rfl⟩, edit, aims⟩
  · rfl

theorem edits_aimed_iff (solver : Solver Rat) (symbol sought key : Symbol) (target aim : Rat) :
    (solver.aimed symbol target).Edits sought key aim ↔
      if sought.id = symbol.id then aim = target ∧ ∃ previous, solver.Edits sought key previous
      else solver.Edits sought key aim := by
  rw [aimed, edits_modify_iff]
  split
  · constructor
    · rintro ⟨state, found, edit, aims⟩
      exact ⟨aims.symm, state.target, state, found, edit, rfl⟩
    · rintro ⟨rfl, _, state, found, edit, _⟩
      exact ⟨state, found, edit, rfl⟩
  · rfl

/-- What is known about edits survives whatever leaves all constraints alone. -/
theorem Editing.unchanged {loose : Nat → Prop} (editing : solver.Editing issued loose offset)
    (framed : Framed (fun _ => False) solver after) : after.Editing issued loose offset := by
  have edits : ∀ symbol key target,
      after.Edits symbol key target ↔ solver.Edits symbol key target :=
    fun symbol => edits_congr (aim_congr (framed.outline symbol))
  refine ⟨fun symbol key target is_edit => ?_, fun key is_loose => ?_, fun id moved => ?_, ?_,
    fun key constraint found => ?_⟩
  · rw [framed.constraints key id]
    exact editing.pulled symbol key target ((edits symbol key target).mp is_edit)
  · rw [framed.constraints key id]
    exact editing.loosened key is_loose
  · refine (editing.settled id moved).imp_right ?_
    rintro ⟨symbol, key, target, is_edit, named⟩
    exact ⟨symbol, key, target, (edits symbol key target).mpr is_edit, named⟩
  · exact fun id is_issued =>
      (editing.issued_below id is_issued).trans_eq framed.lastConstraint.symm
  · rw [framed.constraints key id] at found
    refine (editing.claimed key constraint found).imp_right (Or.imp_right ?_)
    rintro ⟨symbol, hidden, target, is_edit, named⟩
    exact ⟨symbol, hidden, target, (edits symbol hidden target).mpr is_edit, named⟩

/-- An edited variable has one hidden constraint. -/
theorem Edits.key_eq {sought key' : Symbol} {target previous : Rat}
    (edits : solver.Edits symbol key target) (edits' : solver.Edits sought key' previous)
    (same : sought.id = symbol.id) : key' = key ∧ previous = target := by
  obtain ⟨state, found, edit, aims⟩ := edits
  obtain ⟨state', found', edit', aims'⟩ := edits'
  rw [solver.unknowns.get?_congr same, found] at found'
  obtain rfl := Option.some.inj found'
  exact ⟨Option.some.inj (edit'.symm.trans edit), aims'.symm.trans aims⟩

/-- When a target moves, nobody is let go of. -/
theorem edits_aimed_of_edits (solver : Solver Rat) (symbol : Symbol) (target : Rat) (id : Nat) :
    (∃ sought key aim, solver.Edits sought key aim ∧ key.id = id) →
      ∃ sought key aim, (solver.aimed symbol target).Edits sought key aim ∧ key.id = id := by
  rintro ⟨sought, key, aim, edits, named⟩
  by_cases same : sought.id = symbol.id
  · exact ⟨sought, key, target, (solver.edits_aimed_iff symbol sought key target target).mpr
      (by rw [if_pos same]; exact ⟨rfl, aim, edits⟩), named⟩
  · exact ⟨sought, key, aim, (solver.edits_aimed_iff symbol sought key target aim).mpr
      (by rwa [if_neg same]), named⟩

/-- With the target moves the offset of the hidden constraint. -/
theorem Editing.aimed (editing : solver.Editing issued (fun _ => False) offset)
    (registers : solver.Registers kinds) {previous : Rat} (edits : solver.Edits symbol key previous)
    (found : solver.constraints.get? key = some constraint) (target : Rat) :
    (solver.aimed symbol target).Editing issued (fun _ => False)
      (Function.update offset key.id (target + constraint.expression.constant)) := by
  have still := fun id => solver.edits_aimed_of_edits symbol target id
  refine ⟨fun sought key' aim is_edit => ?_, fun _ => False.elim, fun id moved => Or.inr ?_,
    editing.issued_below, fun sought other there =>
      (editing.claimed sought other there).imp_right (Or.imp_right (still sought.id))⟩
  · rw [edits_aimed_iff] at is_edit
    split at is_edit
    · rename_i same
      obtain ⟨rfl, before, was_edit⟩ := is_edit
      obtain ⟨⟨constraint', there, pulls, _⟩, apart⟩ := editing.pulled sought key' before was_edit
      rw [(edits.key_eq was_edit same).1] at there apart ⊢
      rw [found] at there
      obtain rfl := Option.some.inj there
      exact ⟨⟨constraint, found, pulls, Function.update_self _ _ _⟩, apart⟩
    · rename_i distinct
      obtain ⟨⟨constraint', there, pulls, at_aim⟩, apart⟩ := editing.pulled sought key' aim is_edit
      refine ⟨⟨constraint', there, pulls, ?_⟩, apart⟩
      rw [Function.update_of_ne fun same =>
        distinct (editing.unique registers is_edit edits same), at_aim]
  · apply still id
    by_cases here : id = key.id
    · exact ⟨symbol, key, previous, edits, here.symm⟩
    · rw [Function.update_of_ne here] at moved
      exact (editing.settled id moved).resolve_left False.elim

end Solver

namespace Action

open Solver

/-- Moving the target of an edited variable. -/
theorem leads_moveTarget (sound : solver.Settled discipline issued) {previous : Rat}
    (edits : solver.Edits symbol key previous) (target : Rat) :
    (moveTarget symbol key previous target).Leads solver
      fun _ after => after.Settled discipline issued := by
  obtain ⟨kinds, offset, standing, editing⟩ := sound
  obtain ⟨⟨constraint, found, pulls, at_target⟩, _⟩ := editing.pulled symbol key previous edits
  have aimed := editing.aimed standing.registers edits found target
  have standing' := standing.aimed symbol target
  refine Yields.update_bind (Yields.read_bind ?_)
  simp only [found]
  refine Yields.weaken (leads_shift standing' found pulls (target - previous)) ?_
  rintro _ after ⟨same, standing''⟩
  have moved : offset key.id + (target - previous) = target + constraint.expression.constant := by
    rw [at_target]
    ring
  rw [moved] at standing''
  exact ⟨kinds, _, standing'', aimed.unchanged same.framed⟩

end Action

/-! ## Drafts of hidden constraints -/

namespace Strength

theorem isRequired_cappedAtStrong (strength : Strength Rat) :
    strength.cappedAtStrong.isRequired = false := by
  unfold cappedAtStrong isRequired
  rw [decide_eq_false_iff_not, not_le]
  split
  · norm_num [strong, required]
  · rename_i weak
    exact (not_le.mp weak).trans (by norm_num [strong, required])

theorem cappedAtStrong_nonneg {strength : Strength Rat} (weight : 0 ≤ strength.weight) :
    0 ≤ strength.cappedAtStrong.weight := by
  unfold cappedAtStrong
  split
  · norm_num [strong]
  · exact weight

/-- No edit is priced so little that it would be taken for required. -/
theorem orRequired_cappedAtStrong (strength : Strength Rat) :
    strength.orRequired.cappedAtStrong.orRequired = strength.orRequired.cappedAtStrong := by
  have stated : Scalar.negligible strength.orRequired.weight = false := by
    unfold orRequired
    split
    · rfl
    · rename_i stated
      rwa [Bool.not_eq_true] at stated
  have priced : Scalar.negligible strength.orRequired.cappedAtStrong.weight = false := by
    unfold cappedAtStrong
    split
    · rfl
    · exact stated
  rw [orRequired, priced]
  rfl

end Strength

theorem Constraint.pull_constant (strength : Strength Rat) (symbol : Symbol) (value : Rat) :
    (pull strength symbol value).expression.constant = -value := by
  simp [pull, addConstant, addTerm, relate, blank, Relation.leftSide, LinearForm.scale,
    LinearForm.ofConstant, sideSign, Relation.rightSign]

/-- Once the draft is active, it pulls the variable. -/
theorem Constraint.pulls_pull {strength : Strength Rat} (soft : strength.isRequired = false)
    (symbol : Symbol) (value : Rat) {markers : Markers} (active : markers.marker.id ≠ 0) :
    ({ pull strength symbol value with markers } : Constraint Rat).Pulls symbol := by
  refine ⟨isActive_of_ne_zero active, rfl, soft, fun assignment => ?_⟩
  have written : ((((LinearForm.ofConstant 0).scale (-1)).plus symbol (1 * 1)) :
      LinearForm Rat).eval assignment = symbol.under assignment := by
    rw [LinearForm.eval_plus, LinearForm.eval_scale, LinearForm.eval_ofConstant]
    ring
  change (((LinearForm.ofConstant 0).scale (-1)).plus symbol (1 * 1)).constant + -value * 1 +
    (((LinearForm.ofConstant 0).scale (-1)).plus symbol (1 * 1)).coefficients.total assignment =
      symbol.under assignment + (pull strength symbol value).expression.constant
  rw [← written, pull_constant, LinearForm.eval]
  ring

namespace Solver

variable {hidden : Symbol} {written : Constraint Rat}

/-- A draft of a hidden constraint, which is a constraint like any other so far. -/
structure Drafting (discipline : Discipline) (issued : Nat → Prop) (hidden : Symbol)
    (written : Constraint Rat) (solver after : Solver Rat) : Prop where
  settled : after.Settled discipline fun id => issued id ∨ id = hidden.id
  found : after.constraints.get? hidden = some written
  edits : ∀ symbol key target, after.Edits symbol key target → solver.Edits symbol key target

theorem Drafting.rewritten (drafting : Drafting discipline issued hidden written solver between)
    {change : Constraint Rat → Constraint Rat}
    (both : Touched discipline (fun id => issued id ∨ id = hidden.id) hidden between after ∧
      Rewritten hidden change between after) :
    Drafting discipline issued hidden (change written) solver after := by
  obtain ⟨touched, constraint, found, _, there⟩ := both
  rw [drafting.found] at found
  obtain rfl := Option.some.inj found
  exact ⟨touched.settled, there, fun symbol key target edits =>
    drafting.edits symbol key target (touched.edits symbol key target edits)⟩

theorem not_isFirm_of_found (found : solver.constraints.get? key = some constraint)
    (soft : constraint.strength.isRequired = false) : ¬ solver.IsFirm key := by
  rintro ⟨constraint', found', _, _, required⟩
  rw [found] at found'
  obtain rfl := Option.some.inj found'
  rw [soft] at required
  exact Bool.noConfusion required

/-- A constraint that pulls a variable toward a value, with nothing known of an edit yet. -/
structure Pulling (discipline : Discipline) (issued : Nat → Prop) (hidden symbol : Symbol)
    (value : Rat) (kinds : Nat → Symbol.Kind) (offset : Nat → Rat) (solver : Solver Rat) :
    Prop where
  standing : solver.Standing discipline kinds offset
  editing : solver.Editing (fun id => issued id ∨ id = hidden.id) (fun _ => False) offset
  pulls : ∃ constraint, solver.constraints.get? hidden = some constraint ∧
    constraint.Pulls symbol ∧ offset hidden.id = value + constraint.expression.constant
  unissued : ¬ issued hidden.id
  registered : ∃ state, solver.unknowns.get? symbol = some state
  unedited : ∀ key target, ¬ solver.Edits symbol key target

/-- The solver after an edit has begun. -/
def begun (solver : Solver Rat) (symbol hidden : Symbol) (target : Rat) : Solver Rat :=
  { solver with unknowns := solver.unknowns.modify symbol fun state =>
      { state with edit := some hidden, target } }

theorem edits_begun_iff (solver : Solver Rat) (symbol hidden sought key : Symbol)
    (target aim : Rat) : (solver.begun symbol hidden target).Edits sought key aim ↔
      if sought.id = symbol.id then (∃ state, solver.unknowns.get? sought = some state) ∧
        hidden = key ∧ target = aim
      else solver.Edits sought key aim := by
  rw [begun, edits_modify_iff]
  simp only [Option.some.injEq, exists_and_right]

theorem Pulling.settled {value : Rat}
    (pulling : Pulling discipline issued hidden symbol value kinds offset solver) :
    (solver.begun symbol hidden value).Settled discipline issued := by
  have keeps : ∀ state : Variable Rat,
      ({ state with edit := some hidden, target := value } : Variable Rat).isStale =
        state.isStale ∧
      ({ state with edit := some hidden, target := value } : Variable Rat).value = state.value :=
    fun _ => ⟨rfl, rfl⟩
  have still : ∀ id, (∃ sought key aim, solver.Edits sought key aim ∧ key.id = id) →
      ∃ sought key aim, (solver.begun symbol hidden value).Edits sought key aim ∧ key.id = id := by
    rintro id ⟨sought, key, aim, edits, named⟩
    refine ⟨sought, key, aim, ?_, named⟩
    rw [edits_begun_iff, if_neg]
    · exact edits
    · intro same
      obtain ⟨state, found, edit⟩ := edits
      rw [solver.unknowns.get?_congr same] at found
      exact pulling.unedited key aim ⟨state, found, edit⟩
  refine ⟨kinds, offset, pulling.standing.with_unknowns _ fun _ _ => registered_modify keeps,
    fun sought key aim edits => ?_, fun _ => False.elim, fun id moved => Or.inr (still id
      ((pulling.editing.settled id moved).resolve_left False.elim)), fun id is_issued =>
        pulling.editing.issued_below id (Or.inl is_issued), fun sought constraint found => ?_⟩
  · change (solver.begun symbol hidden value).Edits sought key aim at edits
    rw [edits_begun_iff] at edits
    split at edits
    · rename_i same
      obtain ⟨_, rfl, rfl⟩ := edits
      obtain ⟨constraint, found, pulls, at_value⟩ := pulling.pulls
      refine ⟨⟨constraint, found, ⟨pulls.active, pulls.relation, pulls.soft, fun assignment => ?_⟩,
        at_value⟩, pulling.unissued, id⟩
      rw [pulls.expression, Symbol.under_congr same]
    · obtain ⟨pulls, unissued, fixed⟩ := pulling.editing.pulled sought key aim edits
      exact ⟨pulls, fun is_issued => unissued (Or.inl is_issued), fixed⟩
  · rcases pulling.editing.claimed sought constraint found with
      (is_issued | is_hidden) | impossible | edited
    · exact Or.inl is_issued
    · obtain ⟨state, registered⟩ := pulling.registered
      refine Or.inr (Or.inr ⟨symbol, hidden, value, ?_, is_hidden.symm⟩)
      rw [edits_begun_iff, if_pos rfl]
      exact ⟨⟨state, registered⟩, rfl, rfl⟩
    · exact impossible.elim
    · exact Or.inr (Or.inr (still sought.id edited))

end Solver

/-! ## Beginning and ending edits -/

namespace Action

open Solver

variable {handle : VariableHandle} {hidden : ConstraintHandle} {strength : Strength Rat}
  {value : Rat}

theorem leads_blank (sound : solver.Settled discipline issued) (strength : Strength Rat)
    (weight : discipline.priced → 0 ≤ strength.weight) :
    (createConstraint strength.orRequired.cappedAtStrong).Leads solver fun hidden after =>
      hidden = ⟨solver.lastConstraint + 1, solver.identity⟩ ∧
        Drafting discipline issued hidden.key
          (Constraint.blank strength.orRequired.cappedAtStrong) solver after := by
  refine Yields.weaken (leads_createConstraint solver _) ?_
  rintro hidden after ⟨rfl, rfl⟩
  rw [Strength.orRequired_cappedAtStrong]
  refine ⟨rfl, sound.create (fun is_priced => ?_) (fun _ => Iff.rfl) rfl, ?_, fun _ _ _ => id⟩
  · exact Strength.cappedAtStrong_nonneg (Strength.orRequired_nonneg (weight is_priced))
  · exact (Catalog.get?_insert _ _ _ _).trans (if_pos rfl)

/-- A draft is written step by step, and no step is refused. -/
theorem leads_draft (sound : solver.Settled discipline issued) {state : Variable Rat}
    (is_state : solver.findVariable handle = .ok state) (strength : Strength Rat)
    (weight : discipline.priced → 0 ≤ strength.weight) (value : Rat) :
    (draft handle strength.orRequired.cappedAtStrong value).Leads solver fun hidden after =>
      hidden = ⟨solver.lastConstraint + 1, solver.identity⟩ ∧
        Drafting discipline issued hidden.key
          (Constraint.pull strength.orRequired.cappedAtStrong handle.symbol value) solver after ∧
        ∃ now, after.unknowns.get? handle.symbol = some now := by
  have written : (draft handle strength.orRequired.cappedAtStrong value).Yields solver
      (fun hidden after => Drafting discipline issued hidden.key
        (Constraint.pull strength.orRequired.cappedAtStrong handle.symbol value) solver after)
      fun _ _ => True := by
    refine Yields.bind_of_leads (leads_blank sound strength weight) ?_
    rintro hidden created ⟨rfl, drafting⟩
    refine Yields.bind ((yields_setRelation drafting.settled (fun _ => Or.inr rfl) .equal).mono
      (fun _ _ => drafting.rewritten) fun _ _ _ => trivial) ?_
    rintro _ related drafting
    refine Yields.bind ((yields_addTerm drafting.settled (fun _ => Or.inr rfl) handle 1).mono
      (fun _ _ => drafting.rewritten) fun _ _ _ => trivial) ?_
    rintro _ termed drafting
    refine Yields.bind ((yields_addConstant drafting.settled (fun _ => Or.inr rfl) _).mono
      (fun _ _ => drafting.rewritten) fun _ _ _ => trivial) ?_
    exact fun _ drafted drafting => Yields.pure drafting
  have granted : (draft handle strength.orRequired.cappedAtStrong value).Meets solver
      (fun hidden after => hidden = ⟨solver.lastConstraint + 1, solver.identity⟩ ∧
        ∃ now, after.unknowns.get? handle.symbol = some now) (fun _ _ => False) fun _ => True := by
    refine Meets.weaken (drafts_pull is_state _ value) ?_
    rintro hidden after ⟨is_hidden, drafted⟩
    refine ⟨is_hidden, ?_⟩
    rw [drafted.unknowns_eq]
    split
    · rw [Catalog.get?_modify, if_pos rfl, (of_findVariable is_state).2]
      exact ⟨_, rfl⟩
    · exact ⟨state, (of_findVariable is_state).2⟩
  exact (written.and granted).mono (fun _ _ both => ⟨both.2.1, both.1, both.2.2⟩)
    (fun _ _ => And.right) fun _ _ => trivial

/-- The draft is activated, or takes no part and can be removed. -/
theorem yields_addDraft {symbol : Symbol}
    (drafting : Drafting discipline issued hidden.key (Constraint.pull strength symbol value) solver
      between) (soft : strength.isRequired = false) (unissued : ¬ issued hidden.id)
    (registered : ∃ state, between.unknowns.get? symbol = some state)
    (unedited : ∀ key target, ¬ solver.Edits symbol key target) :
    (addConstraint hidden).Yields between
      (fun _ after => ∃ kinds offset,
        Pulling discipline issued hidden.key symbol value kinds offset after)
      (fun _ after => after.Settled discipline (fun id => issued id ∨ id = hidden.id) ∧
        ¬ after.IsFirm hidden.key) := by
  have idle := not_isFirm_of_found drafting.found soft
  refine Yields.read_bind (Yields.demand_bind (fun constraint is_constraint => ?_)
    fun _ _ => ⟨drafting.settled, idle⟩)
  split
  · exact Yields.refuse ⟨drafting.settled, idle⟩
  · rename_i inactive
    rw [Bool.not_eq_true] at inactive
    obtain ⟨_, found⟩ := of_findConstraint is_constraint
    rw [drafting.found] at found
    obtain rfl := Option.some.inj found
    obtain ⟨kinds, offset, standing, editing⟩ := drafting.settled
    have unmoved := editing.offset_eq_zero standing.toOrderly (Or.inr (Eq.refl hidden.id))
    refine (yields_activate standing drafting.found inactive unmoved).mono ?_ ?_
    · rintro _ after activated
      obtain ⟨kinds', standing'⟩ := activated.standing
      obtain ⟨markers, above, there⟩ := activated.found
      have framed : Framed (fun id => id = hidden.key.id) between after := activated.toFramed
      refine ⟨kinds', offset, standing', editing.of_framed standing.toOrderly (Or.inr rfl) framed,
        ⟨_, there, Constraint.pulls_pull soft symbol value (by omega), ?_⟩, unissued, ?_,
          fun key target edits => unedited key target ?_⟩
      · exact unmoved.trans (by simp only [Constraint.pull_constant, add_neg_cancel])
      · obtain ⟨state, found⟩ := registered
        have outline := framed.outline symbol
        rw [found] at outline
        obtain ⟨now, still_there, _⟩ := Option.map_eq_some_iff.mp outline
        exact ⟨now, still_there⟩
      · exact drafting.edits symbol key target
          ((edits_congr (aim_congr (framed.outline symbol)) key target).mp edits)
    · rintro reason after rejected
      have touched := touched_of_rejected standing editing (Or.inr (Eq.refl hidden.key.id)) rejected
      exact ⟨touched.settled, not_isFirm_of_found
        ((rejected.constraints hidden.key id).trans drafting.found) soft⟩

/-- Beginning an edit, or giving an edit another strength. -/
theorem yields_beginEdit (sound : solver.Settled discipline issued) (handle : VariableHandle)
    (weight : discipline.priced → 0 ≤ strength.weight) :
    (beginEdit handle strength).Yields solver (fun _ after => after.Settled discipline issued)
      (fun _ after => after.Settled discipline issued) := by
  have soft := Strength.isRequired_cappedAtStrong strength.orRequired
  obtain ⟨_, _, _, editing⟩ := id sound
  rw [beginEdit_eq]
  refine Yields.read_bind (Yields.demand_bind (fun state is_state => ?_) fun _ _ => sound)
  obtain ⟨_, registered⟩ := of_findVariable is_state
  split
  · rename_i key edit
    obtain ⟨⟨constraint, found, pulls, _⟩, _⟩ :=
      editing.pulled handle.symbol key state.target ⟨state, registered, edit, rfl⟩
    refine (yields_changeStrength sound (fun is_priced => Strength.cappedAtStrong_nonneg
      (Strength.orRequired_nonneg (weight is_priced))) (Or.inr fun constraint' found' => ?_)
        fun _ constraint' _ firm => absurd firm (not_isFirm_of_found found pulls.soft)).mono
          (fun _ _ => Touched.settled) fun _ _ => Touched.settled
    rw [found] at found'
    obtain rfl := Option.some.inj found'
    exact ⟨pulls.active, pulls.soft, soft⟩
  · rename_i unedited
    have unedited' : ∀ key target, ¬ solver.Edits handle.symbol key target := by
      rintro key target ⟨state', found, edit, _⟩
      rw [registered] at found
      rw [← Option.some.inj found, unedited] at edit
      exact Option.some_ne_none _ edit.symm
    refine Yields.bind_of_leads (leads_draft sound is_state strength weight state.value) ?_
    rintro hidden drafted ⟨rfl, drafting, there⟩
    -- The hidden constraint bears a number that no handle was ever given.
    have unissued : ¬ issued (solver.lastConstraint + 1) := fun is_issued =>
      absurd (editing.issued_below _ is_issued) (Nat.not_succ_le_self _)
    refine Yields.bind_of_leads (Yields.attempt
      (yields_addDraft drafting soft unissued there unedited')) ?_
    rintro (reason | _) after outcome
    · dsimp only at outcome ⊢
      refine Yields.bind_of_leads (leads_removeConstraint outcome.1 (Or.inr (Or.inr rfl))
        fun _ => outcome.2) ?_
      rintro _ removed ⟨removed_sound, _, gone⟩
      refine Yields.refuse ?_
      refine (removed_sound.congr fun id => ⟨False.elim, And.left⟩).fewer (fun _ => Or.inl)
        fun key constraint found => Or.rec id fun is_hidden => ?_
      have same : removed.constraints.get? key =
          removed.constraints.get? ⟨solver.lastConstraint + 1, .external⟩ :=
        removed.constraints.get?_congr is_hidden
      exact absurd (found.symm.trans (same.trans (gone (Or.inr rfl))))
        (Option.some_ne_none constraint)
    · obtain ⟨kinds, offset, pulling⟩ := outcome
      exact Yields.update pulling.settled

theorem leads_moveIfBegun (sound : solver.Settled discipline issued) (symbol : Symbol)
    (target : Rat) (begun : Except Refusal Unit) :
    (moveIfBegun symbol target begun).Leads solver
      fun _ after => after.Settled discipline issued := by
  refine Yields.read_bind ?_
  split
  · rename_i found
    split
    · exact Yields.pure sound
    · rename_i key edit
      exact leads_moveTarget sound ⟨_, found, edit, rfl⟩ target
  · exact Yields.pure sound

/-- Pulling a variable toward a target. -/
theorem leads_suggest (sound : solver.Settled discipline issued) (handle : VariableHandle)
    (target : Rat) : (suggest handle target).Leads solver
      fun _ after => after.Settled discipline issued := by
  have medium : discipline.priced → (0 : Rat) ≤ (Strength.medium : Strength Rat).weight :=
    fun _ => by norm_num [Strength.medium]
  refine Yields.read_bind ?_
  split
  · exact Yields.pure sound
  · dsimp only
    split
    · exact leads_moveIfBegun sound handle.symbol target (.ok ())
    · refine Yields.bind (Yields.attempt (yields_beginEdit sound handle medium)) ?_
      rintro (_ | _) between settled <;> exact leads_moveIfBegun settled handle.symbol target _

/-- When an edit ends, its hidden constraint is loose. -/
theorem sound_ended (sound : solver.Settled discipline issued) {target : Rat}
    (edits : solver.Edits symbol key target) :
    ({ solver with unknowns := solver.unknowns.modify symbol fun state =>
        { state with edit := none, target := 0 } } : Solver Rat).Sound discipline issued
          fun id => id = key.id := by
  obtain ⟨kinds, offset, standing, editing⟩ := sound
  have keeps : ∀ state : Variable Rat,
      ({ state with edit := none, target := 0 } : Variable Rat).isStale = state.isStale ∧
      ({ state with edit := none, target := 0 } : Variable Rat).value = state.value :=
    fun _ => ⟨rfl, rfl⟩
  refine ⟨kinds, offset, standing.with_unknowns _ fun _ _ => registered_modify keeps, ?_⟩
  refine editing.loosen standing.registers _ (fun id => id = symbol.id)
    (fun sought key' aim apart => ?_) (fun sought key' aim same => ?_) rfl rfl
    fun id => ⟨fun same => Or.inr ⟨symbol, key, target, rfl, edits, same.symm⟩, ?_⟩
  · rw [edits_modify_iff, if_neg apart]
  · rw [edits_modify_iff, if_pos same]
    rintro ⟨_, _, edit, _⟩
    exact Option.some_ne_none _ edit.symm
  · rintro (impossible | ⟨sought, key', aim, same, edits', named⟩)
    · exact impossible.elim
    · rw [← named, (edits.key_eq edits' same).1]

/-- Letting go of an edited variable. -/
theorem leads_endEdit (sound : solver.Settled discipline issued) (handle : VariableHandle) :
    (endEdit handle : Action Rat Unit).Leads solver fun _ after =>
      after.Settled discipline issued ∧ Spares issued solver after ∧
        (handle.owner = solver.identity →
          ∀ key target, ¬ after.Edits handle.symbol key target) := by
  refine Yields.read_bind ?_
  cases is_state : solver.findVariable handle with
  | error reason =>
      refine Yields.pure ⟨sound, .refl _ _, ?_⟩
      rintro owned key target ⟨state, found, _⟩
      simp only [findVariable, owned, if_true, found] at is_state
      contradiction
  | ok state =>
      obtain ⟨_, found⟩ := of_findVariable is_state
      cases edit : state.edit with
      | none =>
          simp only [edit]
          refine Yields.pure ⟨sound, .refl _ _, ?_⟩
          rintro _ key target ⟨now, there, edited, _⟩
          obtain rfl := Option.some.inj (found.symm.trans there)
          exact Option.some_ne_none key (edited.symm.trans edit)
      | some key =>
          simp only [edit]
          refine Yields.update_bind (Yields.weaken
            (leads_removeConstraint_loose (sound_ended sound ⟨state, found, edit, rfl⟩)) ?_)
          rintro _ after ⟨settled, spares⟩
          have ended := fun symbol key target edits =>
            (solver.edits_modify_iff handle.symbol _ symbol key target).mp
              (spares.edits symbol key target edits)
          refine ⟨settled, ⟨spares.identity, spares.lastConstraint, spares.autoUpdate,
            spares.constraints, fun symbol key target edits => ?_⟩, fun _ key target edits => ?_⟩
          · have before := ended symbol key target edits
            split at before
            · obtain ⟨_, _, edited, _⟩ := before
              exact absurd edited.symm (Option.some_ne_none key)
            · exact before
          · have before := ended handle.symbol key target edits
            rw [if_pos rfl] at before
            obtain ⟨_, _, edited, _⟩ := before
            exact Option.some_ne_none key edited.symm

end Action

end SoftSimplex
