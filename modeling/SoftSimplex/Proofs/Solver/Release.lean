import SoftSimplex.Proofs.Solver.Resetting

/-!
# What edits hold on to

The hidden constraint of an edit mentions its variable and no other. When the edit ends, the
variable loses that one reference, and goes with it if nobody else refers to it. So the order in
which edits end does not matter to what is left: which variables stay, and by how many they are
referred to, can be read off before the first edit ends.
-/

namespace SoftSimplex

variable {kinds : Nat → Symbol.Kind} {offset : Nat → Rat} {solver after : Solver Rat}
  {issued loose : Nat → Prop} {symbol key : Symbol} {constraint : Constraint Rat}

/-- The number of references when one has gone, if any is left. -/
def lessened (references : Nat) : Option Nat :=
  if 1 < references then some (references - 1) else none

/-- The number of references to a variable that are left when its edit has ended, if any is. -/
def Variable.lasting {α : Type} (state : Variable α) : Option Nat :=
  if state.edit.isSome then lessened state.references else some state.references

namespace Solver

variable {α : Type}

/-- The number of references to a variable, if it is registered. -/
def references (solver : Solver α) (symbol : Symbol) : Option Nat :=
  (solver.unknowns.get? symbol).map Variable.references

/-- The number of references to a variable that are left when all edits have ended. -/
def lasting (solver : Solver α) (symbol : Symbol) : Option Nat :=
  (solver.unknowns.get? symbol).bind Variable.lasting

theorem lasting_congr {solver after : Solver α}
    (outlines : (after.unknowns.get? symbol).map Variable.outline =
      (solver.unknowns.get? symbol).map Variable.outline) :
    after.lasting symbol = solver.lasting symbol := by
  have lasts := congrArg (fun outline => Option.bind outline fun (count, edit, _) =>
    if edit.isSome then lessened count else some count) outlines
  simp only [Option.bind_map] at lasts
  exact lasts

theorem edit_eq_none {state : Variable Rat} (found : solver.unknowns.get? symbol = some state)
    (unedited : ∀ key target, ¬ solver.Edits symbol key target) : state.edit = none := by
  by_contra edited
  obtain ⟨key, edit⟩ := Option.ne_none_iff_exists'.mp edited
  exact unedited key state.target ⟨state, found, edit, rfl⟩

/-- What an unedited variable has, it keeps. -/
theorem lasting_of_unedited (unedited : ∀ key target, ¬ solver.Edits symbol key target) :
    solver.lasting symbol = solver.references symbol := by
  unfold lasting references
  cases found : solver.unknowns.get? symbol with
  | none => rfl
  | some state =>
      simp [Variable.lasting, edit_eq_none found unedited]

/-- An edited variable loses a reference. -/
theorem lasting_of_edits {target : Rat} (edits : solver.Edits symbol key target) :
    solver.lasting symbol = (solver.references symbol).bind lessened := by
  obtain ⟨state, found, edit, _⟩ := edits
  simp [lasting, references, found, Variable.lasting, edit]

end Solver

/-- The expression of the constraint has a single term, which bears the number. -/
def Constraint.Mentions (constraint : Constraint Rat) (id : Nat) : Prop :=
  ∃ term, constraint.expression.terms = [term] ∧ term.1.id = id

/-- A reduced expression that depends on one symbol has a single term. -/
theorem Constraint.Pulls.mentions (pulls : constraint.Pulls symbol)
    (reduced : constraint.expression.Reduced)
    (spanned : constraint.expression.Over fun inside => inside.id ≠ 0) (proper : symbol.id ≠ 0) :
    constraint.Mentions symbol.id := by
  have coefficient : ∀ inside : Symbol, inside.id ≠ 0 →
      constraint.expression.coefficient inside = symbol.under (Assignment.unit inside.id) := by
    intro inside given
    rw [LinearForm.coefficient_eq _ given, pulls.expression, add_sub_cancel_right]
  have same : ∀ term ∈ constraint.expression.terms, term.1.id = symbol.id := by
    intro term member
    by_contra apart
    apply reduced term member
    rw [← LinearForm.coefficient_of_mem member, coefficient term.1 (spanned term member),
      Symbol.under_unit_of_ne (Ne.symm apart)]
  have mentioned : constraint.expression.mentions symbol = true := by
    refine LinearForm.mentions_of_coefficient_ne_zero ?_
    rw [coefficient symbol proper, Symbol.under_of_ne_zero proper]
    simp [Assignment.unit]
  obtain ⟨term, member, named, _⟩ := LinearForm.exists_term_of_mentions mentioned
  cases terms : constraint.expression.terms with
  | nil => exact absurd (terms ▸ member) List.not_mem_nil
  | cons first rest =>
      cases rest with
      | nil => exact ⟨first, terms, same first (terms ▸ List.mem_cons_self)⟩
      | cons second rest =>
          have distinct : Layout.Distinct (first :: second :: rest) :=
            terms ▸ constraint.expression.coefficients.distinct
          have both := fun term inside => same term (terms ▸ inside)
          exact absurd ((both first List.mem_cons_self).trans
            (both second (List.mem_cons_of_mem first List.mem_cons_self)).symm)
              (List.rel_of_pairwise_cons distinct List.mem_cons_self)

/-- The hidden constraint of an edited variable mentions it alone. -/
theorem Solver.Editing.mentions (editing : solver.Editing issued loose offset)
    (orderly : solver.Orderly kinds) {target : Rat} (edits : solver.Edits symbol key target) :
    ∃ constraint, solver.constraints.get? key = some constraint ∧
      constraint.Mentions symbol.id := by
  obtain ⟨⟨constraint, found, pulls, _⟩, _⟩ := editing.pulled symbol key target edits
  obtain ⟨state, registered, _⟩ := edits
  exact ⟨constraint, found, pulls.mentions (orderly.reduced key constraint found)
    ((orderly.expression key constraint found).mono fun _ both => both.1.1.1)
    (orderly.registers symbol state registered).1⟩

/-! ## Ending one edit -/

namespace Action

open Solver

/-- Dropping a reference to an unedited variable. -/
theorem leads_dropReference_unedited (unedited : ∀ key target, ¬ solver.Edits symbol key target) :
    (dropReference symbol).Leads solver fun edit after => edit = none ∧
      after.constraints = solver.constraints ∧ ∀ sought, after.lasting sought =
        if sought.id = symbol.id then (solver.lasting sought).bind lessened
        else solver.lasting sought := by
  refine Yields.read_bind ?_
  cases found : solver.unknowns.get? symbol with
  | none =>
      refine Yields.pure ⟨rfl, rfl, fun sought => ?_⟩
      split
      · rename_i same
        rw [lasting, solver.unknowns.get?_congr same, found]
        rfl
      · rfl
  | some state =>
      have edit := edit_eq_none found unedited
      dsimp only
      split
      · rename_i several
        refine Yields.update_bind (Yields.pure ⟨rfl, rfl, fun sought => ?_⟩)
        simp only [lasting, Catalog.get?_modify]
        split
        · rename_i same
          simp [solver.unknowns.get?_congr same, found, Variable.lasting, lessened, several, edit,
            Variable.released]
        · rfl
      · rename_i single
        refine Yields.update_bind (Yields.pure ⟨edit, rfl, fun sought => ?_⟩)
        simp only [lasting, Catalog.get?_erase]
        split
        · rename_i same
          simp [solver.unknowns.get?_congr same, found, Variable.lasting, lessened, single, edit]
        · rfl

/-- Removing a constraint that mentions a single variable, which is not edited, takes a reference
from that variable and touches nothing else. -/
theorem leads_removeConstraint_single (standing : solver.Standing ⟨false, false⟩ kinds offset)
    (found : solver.constraints.get? key = some constraint)
    (mentions : constraint.Mentions symbol.id)
    (unedited : ∀ key target, ¬ solver.Edits symbol key target) :
    (removeConstraint key : Action Rat Unit).Leads solver fun _ after =>
      (∀ sought : Symbol, sought.id ≠ key.id →
        after.constraints.get? sought = solver.constraints.get? sought) ∧
      ∀ sought, after.lasting sought =
        if sought.id = symbol.id then (solver.lasting sought).bind lessened
        else solver.lasting sought := by
  obtain ⟨depth, deep⟩ : ∃ depth, solver.constraintCount = depth + 1 :=
    ⟨_, (Catalog.size_erase_of_found found).symm⟩
  obtain ⟨term, terms, named⟩ := mentions
  refine Yields.read_bind ?_
  rw [deep]
  refine Yields.bind (leads_deactivate standing (fun steady => nomatch steady) fun _ _ => rfl) ?_
  rintro _ between deactivated
  have taken := deactivated.found
  rw [found, Option.map_some] at taken
  refine Yields.read_bind ?_
  simp only [Catalog.take?, taken, Option.map_some]
  refine Yields.update_bind ?_
  rw [terms]
  have still : ∀ edit target, ¬ ({ between with constraints := between.constraints.erase key } :
      Solver Rat).Edits term.1 edit target := by
    have spares : Spares (fun _ => False) solver between :=
      deactivated.toFramed.spares fun _ => False.elim
    rintro edit target ⟨state, there, aims⟩
    obtain ⟨before, was, aims'⟩ := spares.edits term.1 edit target ⟨state, there, aims⟩
    rw [solver.unknowns.get?_congr named] at was
    exact unedited edit target ⟨before, was, aims'⟩
  refine Yields.bind (Yields.bind (leads_dropReference_unedited still) ?_) fun _ _ => Yields.pure
  rintro _ after ⟨rfl, constraints, counts⟩
  refine Yields.pure ⟨fun sought apart => ?_, fun sought => ?_⟩
  · rw [constraints]
    dsimp only
    rw [Catalog.get?_erase, if_neg apart, deactivated.constraints sought apart]
  · have same : ({ between with constraints := between.constraints.erase key } :
        Solver Rat).lasting sought = solver.lasting sought :=
      lasting_congr (deactivated.outline sought)
    rw [counts, named, same]

/-- Ending an edit spares what lasts. -/
theorem leads_endEdit_lasting (settled : solver.Settled ⟨false, false⟩ issued)
    (handle : VariableHandle) : (endEdit handle : Action Rat Unit).Leads solver fun _ after =>
      ∀ sought, after.lasting sought = solver.lasting sought := by
  refine Yields.read_bind ?_
  cases is_state : solver.findVariable handle with
  | error reason => exact Yields.pure fun _ => rfl
  | ok state =>
      obtain ⟨_, found⟩ := of_findVariable is_state
      cases edit : state.edit with
      | none =>
          simp only [edit]
          exact Yields.pure fun _ => rfl
      | some key =>
          simp only [edit]
          have edits : solver.Edits handle.symbol key state.target := ⟨state, found, edit, rfl⟩
          obtain ⟨_, _, standing, editing⟩ := id settled
          obtain ⟨_, _, standing', _⟩ := sound_ended settled edits
          obtain ⟨constraint, there, mentions⟩ := editing.mentions standing.toOrderly edits
          have ended := fun key target => mt (solver.edits_modify_iff handle.symbol
            (fun state => { state with edit := none, target := 0 }) handle.symbol key target).mp
          refine Yields.update_bind (Yields.weaken (leads_removeConstraint_single standing' there
            mentions fun key target => ended key target ?_) ?_)
          · rw [if_pos rfl]
            rintro ⟨_, _, impossible, _⟩
            exact Option.some_ne_none key impossible.symm
          · rintro _ after ⟨_, lasts⟩ sought
            rw [lasts]
            split
            · rename_i same
              have was := solver.unknowns.get?_congr same
              simp only [lasting, Catalog.get?_modify, if_pos same, was, found]
              simp [Variable.lasting, edit]
            · rename_i apart
              simp only [lasting, Catalog.get?_modify, if_neg apart]

/-- Withdrawing a constraint spares what lasts. -/
theorem leads_withdrawConstraint_lasting (settled : solver.Settled ⟨false, false⟩ issued)
    (handle : ConstraintHandle) :
    (withdrawConstraint handle : Action Rat Unit).Leads solver fun _ after =>
      ∀ sought, after.lasting sought = solver.lasting sought := by
  obtain ⟨_, _, standing, _⟩ := settled
  refine Yields.read_bind ?_
  cases solver.findConstraint handle with
  | error reason => exact Yields.pure fun _ => rfl
  | ok constraint =>
      refine Yields.weaken (leads_deactivate standing (fun steady => nomatch steady)
        fun _ _ => rfl) fun _ after deactivated sought => ?_
      exact lasting_congr (deactivated.outline sought)

/-! ## Ending all edits -/

/-- Removing hidden constraints of different variables, after all edits have ended, takes a
reference from each of the variables. -/
theorem leads_removeAll_lasting (pulls : List (Symbol × Nat))
    (keys_apart : pulls.Pairwise fun first second => first.1.id ≠ second.1.id)
    (apart : pulls.Pairwise fun first second => first.2 ≠ second.2)
    (sound : solver.Sound ⟨false, false⟩ issued fun id => ∃ pull ∈ pulls, pull.1.id = id)
    (mentions : ∀ pull ∈ pulls, ∃ constraint, solver.constraints.get? pull.1 = some constraint ∧
      constraint.Mentions pull.2)
    (unedited : ∀ symbol key target, ¬ solver.Edits symbol key target) :
    ((pulls.map Prod.fst).forM removeConstraint : Action Rat Unit).Leads solver fun _ after =>
      ∀ sought, after.lasting sought = if sought.id ∈ pulls.map Prod.snd then
        (solver.lasting sought).bind lessened else solver.lasting sought := by
  induction pulls generalizing solver with
  | nil => exact Yields.pure fun sought => by simp
  | cons first rest inductionHypothesis =>
      obtain ⟨key_distinct, keys_apart_rest⟩ := List.pairwise_cons.mp keys_apart
      obtain ⟨distinct, apart_rest⟩ := List.pairwise_cons.mp apart
      obtain ⟨constraint, found, single⟩ := mentions first List.mem_cons_self
      obtain ⟨_, _, standing, _⟩ := id sound
      have removes := leads_removeConstraint_single standing found single
        (unedited ⟨first.2, .external⟩)
      have clears := leads_removeLoose sound ⟨first, List.mem_cons_self, rfl⟩
      refine Yields.bind (removes.both clears) ?_
      rintro _ between ⟨⟨elsewhere, lasts⟩, sound', spares⟩
      have left : between.Sound ⟨false, false⟩ issued fun id => ∃ pull ∈ rest, pull.1.id = id := by
        refine sound'.congr fun id => ⟨?_, ?_⟩
        · rintro ⟨pull, member, rfl⟩
          exact ⟨⟨pull, List.mem_cons_of_mem _ member, rfl⟩, (key_distinct pull member).symm⟩
        · rintro ⟨⟨pull, member, rfl⟩, other⟩
          rcases List.mem_cons.mp member with rfl | inside
          · exact absurd rfl other
          · exact ⟨pull, inside, rfl⟩
      refine Yields.weaken (inductionHypothesis keys_apart_rest apart_rest left
        (fun pull member => ?_) fun symbol key target => mt (spares.edits symbol key target)
          (unedited symbol key target)) ?_
      · rw [elsewhere pull.1 (key_distinct pull member).symm]
        exact mentions pull (List.mem_cons_of_mem _ member)
      · intro _ after lasts' sought
        rw [lasts', lasts]
        simp only [List.map_cons, List.mem_cons]
        by_cases same : sought.id = first.2
        · have gone : sought.id ∉ rest.map Prod.snd := by
            rw [same, List.mem_map]
            rintro ⟨pull, member, named⟩
            exact distinct pull member named.symm
          rw [if_neg gone, if_pos same, if_pos (Or.inl same)]
        · rw [if_neg same]
          simp only [same, false_or]

end Action

namespace Solver

/-- The hidden constraints of all edits, with the numbers of the edited variables. -/
def pulls (solver : Solver Rat) : List (Symbol × Nat) :=
  solver.unknowns.entries.flatMap fun entry =>
    entry.2.edit.toList.map fun key => (key, entry.1.id)

theorem map_fst_pulls (solver : Solver Rat) : solver.pulls.map Prod.fst = solver.edits := by
  simp [pulls, edits, List.map_flatMap, Function.comp_def]

theorem mem_pulls_iff (solver : Solver Rat) (pull : Symbol × Nat) :
    pull ∈ solver.pulls ↔
      ∃ symbol target, solver.Edits symbol pull.1 target ∧ symbol.id = pull.2 := by
  unfold pulls
  rw [List.mem_flatMap]
  constructor
  · rintro ⟨entry, member, inside⟩
    obtain ⟨key, edit, rfl⟩ := List.mem_map.mp inside
    exact ⟨entry.1, entry.2.target, ⟨entry.2, (Catalog.get?_eq_some_iff _ _ _).mpr
      ⟨entry, member, rfl, rfl⟩, Option.mem_toList.mp edit, rfl⟩, rfl⟩
  · rintro ⟨symbol, target, ⟨state, found, edit, _⟩, named⟩
    obtain ⟨entry, member, same, rfl⟩ := (Catalog.get?_eq_some_iff _ _ _).mp found
    exact ⟨entry, member, List.mem_map.mpr ⟨pull.1, Option.mem_toList.mpr edit,
      Prod.ext rfl (same.trans named)⟩⟩

theorem mem_map_snd_pulls_iff (solver : Solver Rat) (symbol : Symbol) :
    symbol.id ∈ solver.pulls.map Prod.snd ↔ ∃ key target, solver.Edits symbol key target := by
  rw [List.mem_map]
  constructor
  · rintro ⟨pull, member, named⟩
    obtain ⟨sought, target, ⟨state, found, aims⟩, same⟩ := (solver.mem_pulls_iff pull).mp member
    rw [solver.unknowns.get?_congr (same.trans named)] at found
    exact ⟨pull.1, target, state, found, aims⟩
  · rintro ⟨key, target, edits⟩
    exact ⟨(key, symbol.id), (solver.mem_pulls_iff _).mpr ⟨symbol, target, edits, rfl⟩, rfl⟩

/-- No variable is listed twice. -/
theorem pulls_apart (solver : Solver Rat) :
    solver.pulls.Pairwise fun first second => first.2 ≠ second.2 := by
  have numbers := solver.unknowns.numbers_nodup
  rw [Catalog.listing, List.map_map, List.Nodup, List.pairwise_map] at numbers
  refine List.pairwise_flatMap.mpr ⟨fun entry _ => ?_, numbers.imp ?_⟩
  · cases entry.2.edit with
    | none => exact List.Pairwise.nil
    | some key => exact List.pairwise_singleton _ _
  · intro first second apart pull inside pull' inside'
    obtain ⟨_, _, rfl⟩ := List.mem_map.mp inside
    obtain ⟨_, _, rfl⟩ := List.mem_map.mp inside'
    exact apart

/-- When all edits are forgotten, the references are still there. -/
theorem lasting_forgotten (solver : Solver Rat) (symbol : Symbol) :
    solver.forgotten.lasting symbol = solver.references symbol := by
  rw [lasting, get?_forgotten, references]
  cases solver.unknowns.get? symbol <;> rfl

theorem lasting_refresh (solver : Solver Rat) (symbol : Symbol) :
    solver.refresh.lasting symbol = solver.lasting symbol := by
  have framed : Framed (fun _ => False) solver solver.refresh := (SameBooks.refresh solver).framed
  exact lasting_congr (framed.outline symbol)

end Solver

namespace Action

open Solver

/-- Ending all edits at once leaves of every variable what lasts. -/
theorem leads_endAll (settled : solver.Settled ⟨false, false⟩ issued) :
    (do
      let edits ← forgetEdits
      edits.forM removeConstraint
      refreshAll : Action Rat Unit).Leads solver fun _ after =>
        after.stale = [] ∧ ∀ sought, after.lasting sought = solver.lasting sought := by
  obtain ⟨_, _, standing, editing⟩ := id settled
  refine Yields.bind (leads_forgetEdits solver) ?_
  rintro _ _ ⟨rfl, rfl⟩
  have sound : solver.forgotten.Sound ⟨false, false⟩ issued fun id =>
      ∃ pull ∈ solver.pulls, pull.1.id = id := by
    refine settled.forgotten.congr fun id => ?_
    rw [← map_fst_pulls]
    simp only [List.mem_map, exists_exists_and_eq_and]
  have keys_apart := editing.edits_apart standing.registers
  rw [← map_fst_pulls, List.pairwise_map] at keys_apart
  rw [← map_fst_pulls]
  refine Yields.bind (leads_removeAll_lasting solver.pulls keys_apart solver.pulls_apart sound
    (fun pull member => ?_) solver.not_edits_forgotten) ?_
  · obtain ⟨symbol, target, edits, named⟩ := (solver.mem_pulls_iff pull).mp member
    rw [← named]
    exact editing.mentions standing.toOrderly edits
  · intro _ after lasts
    refine Yields.update ⟨rfl, fun sought => ?_⟩
    rw [lasting_refresh, lasts, lasting_forgotten]
    split
    · rename_i pulled
      obtain ⟨key, target, edits⟩ := (solver.mem_map_snd_pulls_iff sought).mp pulled
      exact (lasting_of_edits edits).symm
    · rename_i free
      exact (lasting_of_unedited fun key target edits =>
        free ((solver.mem_map_snd_pulls_iff sought).mpr ⟨key, target, edits⟩)).symm

/-- A reset in part leaves of every variable what lasts, and no cache to be refreshed. -/
theorem leads_reset_lasting (settled : solver.Settled ⟨false, false⟩ issued) :
    (reset false : Action Rat Unit).Leads solver fun _ after =>
      after.stale = [] ∧ ∀ sought, after.lasting sought = solver.lasting sought := by
  refine Yields.read_bind ?_
  dsimp only
  split
  · refine Yields.update_bind (Yields.weaken (leads_endAll settled.refresh) ?_)
    rintro _ after ⟨fresh, lasts⟩
    exact ⟨fresh, fun sought => (lasts sought).trans (solver.lasting_refresh sought)⟩
  · exact leads_endAll settled

end Action

end SoftSimplex
