import SoftSimplex.Proofs.Solver.Meaning
import SoftSimplex.Proofs.Tableau.Counting

/-!
# Rows come and go with live constraints

After every history the tableau has one row for every live constraint, hidden ones included, and
the marker of every live constraint occurs in it. So the tableau is empty once no constraint is
live. Taking constraints out and ending edits comes to that, in whatever order it is done: what is
live after a removal was live before, and what the removal names is live no more.
-/

namespace SoftSimplex

variable {discipline : Discipline} {kinds : Nat → Symbol.Kind} {offset : Nat → Rat}
  {solver after : Solver Rat} {issued : Nat → Prop} {key : Symbol} {constraint : Constraint Rat}
  {command : Command Rat} {steps : Nat}

namespace Solver

/-- The constraint with this number takes part. -/
def Lives (solver : Solver Rat) (id : Nat) : Prop :=
  ∃ constraint, solver.constraints.get? ⟨id, .external⟩ = some constraint ∧
    constraint.isActive = true

theorem lives_iff (solver : Solver Rat) (key : Symbol) : solver.Lives key.id ↔
    ∃ constraint, solver.constraints.get? key = some constraint ∧ constraint.isActive = true := by
  unfold Lives
  rw [solver.constraints.get?_congr (show (⟨key.id, .external⟩ : Symbol).id = key.id from rfl)]

theorem live_eq_nil_iff (solver : Solver Rat) : solver.live = [] ↔ ∀ id, ¬ solver.Lives id := by
  rw [live, List.map_eq_nil_iff, List.filter_eq_nil_iff]
  constructor
  · rintro idle id ⟨constraint, found, active⟩
    exact idle (id, constraint) ((solver.constraints.mem_listing_iff _ _).mpr found) active
  · rintro idle ⟨id, constraint⟩ member active
    exact idle id ⟨constraint, (solver.constraints.mem_listing_iff ⟨id, .external⟩ _).mp member,
      active⟩

/-- There are as many rows as live constraints. -/
theorem Standing.rowCount_eq (standing : solver.Standing discipline kinds offset) :
    solver.rowCount = solver.live.length := by
  rw [rowCount, standing.stands.rows_size standing.entries, Catalog.ledger, live, List.length_map,
    List.length_map]

/-- The marker of a live constraint is basic or occurs in a row. -/
theorem Standing.marked (standing : solver.Standing discipline kinds offset)
    (found : solver.constraints.get? key = some constraint) (active : constraint.isActive = true) :
    solver.tableau.isBasic constraint.markers.marker = true ∨
      ∃ row ∈ solver.tableau.equations, row.2.mentions constraint.markers.marker = true := by
  have entry := standing.stands.marked standing.entries (Catalog.mem_ledger found active offset)
  exact entry

/-- Without live constraints the tableau is empty. -/
theorem Standing.vacant (standing : solver.Standing discipline kinds offset)
    (none_live : solver.live = []) :
    solver.rowCount = 0 ∧ solver.tableau.objective.terms = [] := by
  have no_ledger : solver.constraints.ledger offset = [] :=
    List.map_eq_nil_iff.mpr (List.map_eq_nil_iff.mp none_live)
  have stands := standing.stands
  rw [no_ledger] at stands
  exact stands.vacant

/-- The hidden constraint of an edited variable takes part. -/
theorem Editing.lives (editing : solver.Editing issued (fun _ => False) offset) {symbol : Symbol}
    {target : Rat} (edits : solver.Edits symbol key target) : solver.Lives key.id := by
  obtain ⟨⟨constraint, found, pulls, _⟩, _⟩ := editing.pulled symbol key target edits
  exact (solver.lives_iff key).mpr ⟨constraint, found, pulls.active⟩

/-- A live constraint that was issued to nobody belongs to an edit. -/
theorem Editing.edits_of_lives (editing : solver.Editing issued (fun _ => False) offset) {id : Nat}
    (lives : solver.Lives id) (unissued : ¬ issued id) :
    ∃ symbol key target, solver.Edits symbol key target ∧ key.id = id := by
  obtain ⟨constraint, found, _⟩ := lives
  rcases editing.claimed _ constraint found with is_issued | impossible | hidden
  · exact absurd is_issued unissued
  · exact impossible.elim
  · exact hidden

/-- Fewer edits and fewer live constraints, in good standing. -/
structure Dwindled (issued : Nat → Prop) (solver after : Solver Rat) : Prop where
  identity : after.identity = solver.identity
  settled : after.Settled ⟨false, false⟩ issued
  edits : ∀ symbol key target, after.Edits symbol key target → solver.Edits symbol key target
  lives : ∀ id, issued id → after.Lives id → solver.Lives id

/-- No hidden constraint comes to life either, because no edit begins. -/
theorem Dwindled.of_lives (dwindled : Dwindled issued solver after)
    (settled : solver.Settled ⟨false, false⟩ issued) {id : Nat} (lives : after.Lives id) :
    solver.Lives id := by
  by_cases is_issued : issued id
  · exact dwindled.lives id is_issued lives
  · obtain ⟨_, _, _, editing⟩ := settled
    obtain ⟨_, _, _, editing'⟩ := dwindled.settled
    obtain ⟨symbol, key, target, edits, rfl⟩ := editing'.edits_of_lives lives is_issued
    exact editing.lives (dwindled.edits symbol key target edits)

theorem Touched.dwindled (touched : Touched ⟨false, false⟩ issued key solver after)
    (idle : ¬ after.Lives key.id) : Dwindled issued solver after where
  identity := touched.identity
  settled := touched.settled
  edits := touched.edits
  lives id is_issued lives := by
    have distinct : id ≠ key.id := by
      rintro rfl
      exact idle lives
    obtain ⟨constraint, found, active⟩ := lives
    rw [touched.constraints ⟨id, .external⟩ ⟨is_issued, distinct⟩] at found
    exact ⟨constraint, found, active⟩

theorem Spares.dwindled (spares : Spares issued solver after)
    (settled : after.Settled ⟨false, false⟩ issued) : Dwindled issued solver after where
  identity := spares.identity
  settled := settled
  edits := spares.edits
  lives id is_issued lives := by
    obtain ⟨constraint, found, active⟩ := lives
    rw [spares.constraints ⟨id, .external⟩ is_issued] at found
    exact ⟨constraint, found, active⟩

end Solver

namespace Command

open Solver

/-- A command by which the owner takes something out of the tableau. -/
def removes (identity : Nat) : Command Rat → Bool
  | withdrawConstraint handle | eraseConstraint handle | discardConstraint handle =>
      handle.owner == identity
  | endEdit handle => handle.owner == identity
  | _ => false

/-- The number of the constraint that such a command takes out. -/
def removal? (solver : Solver Rat) : Command Rat → Option Nat
  | withdrawConstraint handle | eraseConstraint handle | discardConstraint handle =>
      some handle.id
  | endEdit handle => ((solver.unknowns.get? handle.symbol).bind Variable.edit).map Symbol.id
  | _ => none

/-- An edit that has ended leaves its hidden constraint dead. -/
theorem not_lives_of_ended {symbol : Symbol} {id : Nat}
    (settled : solver.Settled ⟨false, false⟩ issued) (dwindled : Dwindled issued solver after)
    (ended : ∀ key target, ¬ after.Edits symbol key target)
    (edited : ((solver.unknowns.get? symbol).bind Variable.edit).map Symbol.id = some id) :
    ¬ after.Lives id := by
  obtain ⟨key, edit, rfl⟩ := Option.map_eq_some_iff.mp edited
  obtain ⟨state, found, edit⟩ := Option.bind_eq_some_iff.mp edit
  have edits : solver.Edits symbol key state.target := ⟨state, found, edit, rfl⟩
  obtain ⟨_, _, standing, editing⟩ := settled
  obtain ⟨_, _, _, editing'⟩ := dwindled.settled
  intro lives
  obtain ⟨sought, hidden, target, edits', same⟩ :=
    editing'.edits_of_lives lives (editing.pulled symbol key _ edits).2.1
  have named := editing.unique standing.registers
    (dwindled.edits sought hidden target edits') edits same
  obtain ⟨now, there, edit', aimed⟩ := edits'
  rw [after.unknowns.get?_congr named] at there
  exact ended hidden target ⟨now, there, edit', aimed⟩

/-- A removal leaves fewer live constraints, and the one that it names is not among them. -/
theorem leads_removal (settled : solver.Settled ⟨false, false⟩ issued)
    (own : ∀ handle ∈ command.named, solver.Issued issued handle)
    (removal : command.removes solver.identity = true) :
    command.action.Leads solver fun reply after =>
      reply = .done ∧ Dwindled issued solver after ∧
        ∀ id, command.removal? solver = some id → ¬ after.Lives id := by
  have finished : ∀ {request : Action Rat Unit} {kept : Solver Rat → Prop},
      (request.Leads solver fun _ after => kept after) →
        (action.finish request).Leads solver fun reply after => reply = .done ∧ kept after :=
    fun leads => .bind leads fun _ _ holds => .pure ⟨rfl, holds⟩
  have free : ∀ {handle : ConstraintHandle}, (⟨false, false⟩ : Discipline).steady →
      handle.owner = solver.identity → ¬ solver.IsFirm handle.key := fun steady => nomatch steady
  have gone : ∀ {handle : ConstraintHandle} {after : Solver Rat},
      Touched ⟨false, false⟩ issued handle.key solver after → ¬ after.Lives handle.id →
        Dwindled issued solver after ∧ ∀ id, some handle.id = some id → ¬ after.Lives id := by
    intro handle after touched idle
    refine ⟨touched.dwindled idle, fun id same => ?_⟩
    rwa [← Option.some.inj same]
  cases command with
  | withdrawConstraint handle =>
      have owned : handle.owner = solver.identity := by simpa [removes] using removal
      refine finished (.weaken (Action.leads_withdrawConstraint settled (own handle
        List.mem_cons_self) free) fun _ after both => gone both.1 ?_)
      rintro ⟨constraint, found, active⟩
      rw [show (⟨handle.id, .external⟩ : Symbol) = handle.key from rfl, both.2 owned] at found
      obtain ⟨_, _, rfl⟩ := Option.map_eq_some_iff.mp found
      exact Bool.noConfusion active
  | eraseConstraint handle =>
      have owned : handle.owner = solver.identity := by simpa [removes] using removal
      refine finished (.weaken (Action.leads_eraseConstraint settled (own handle
        List.mem_cons_self) free) fun _ after both => gone both.1 ?_)
      rintro ⟨constraint, found, active⟩
      rw [both.2 owned constraint found] at active
      exact Bool.noConfusion active
  | discardConstraint handle =>
      have owned : handle.owner = solver.identity := by simpa [removes] using removal
      refine finished (.weaken (Action.leads_discardConstraint settled (own handle
        List.mem_cons_self) free) fun _ after both => gone both.1 ?_)
      rintro ⟨constraint, found, _⟩
      exact Option.some_ne_none constraint (found.symm.trans (both.2 owned))
  | endEdit handle =>
      have owned : handle.owner = solver.identity := by simpa [removes] using removal
      refine finished (.weaken (Action.leads_endEdit settled handle) ?_)
      rintro _ after ⟨settled', spares, ended⟩
      exact ⟨spares.dwindled settled', fun id =>
        not_lives_of_ended settled (spares.dwindled settled') (ended owned)⟩
  | _ => exact Bool.noConfusion removal

/-- A removal still names a constraint that has survived another one. -/
theorem removal?_of_dwindled (settled : solver.Settled ⟨false, false⟩ issued)
    (dwindled : Dwindled issued solver after) {id : Nat}
    (named : command.removal? solver = some id) (lives : after.Lives id) :
    command.removal? after = some id := by
  cases command with
  | endEdit handle =>
      by_contra other
      refine not_lives_of_ended settled dwindled (fun key target edits => ?_) named lives
      obtain ⟨state, found, edit, _⟩ := edits
      have was := dwindled.edits handle.symbol key state.target ⟨state, found, edit, rfl⟩
      obtain ⟨before, there, edit', _⟩ := was
      apply other
      simp only [removal?, there, found, edit, edit', Option.bind_some, Option.map_some] at named ⊢
      exact named
  | _ => exact named

end Command

namespace Course

variable {course last : Course Rat} {commands : List (Command Rat)}

/-- One removal, as a step of a course. -/
theorem Reached.next_dwindled (reached : course.Reached ⟨false, false⟩)
    (allowed : course.Allows ⟨false, false⟩ command steps)
    (removal : command.removes course.solver.identity = true) :
    Solver.Dwindled (· ∈ course.issued) course.solver (course.next command steps).solver ∧
      (∀ id, command.removal? course.solver = some id →
        ¬ (course.next command steps).solver.Lives id) ∧
      (course.next command steps).issued = course.issued := by
  have ends := (Command.leads_removal reached.settled allowed.own removal).perform steps
  have final := allowed.final
  unfold next
  revert ends final
  cases (course.solver.perform command steps).1 with
  | answered reply =>
      rintro ⟨rfl, dwindled, idle⟩ _
      exact ⟨dwindled, idle, List.nil_append course.issued⟩
  | refused reason => exact fun impossible _ => impossible.elim
  | paused => exact fun _ => Bool.noConfusion

/-- Every live constraint is named by one of the removals. -/
def Covers (course : Course Rat) (removals : List (Command Rat)) : Prop :=
  ∀ entry ∈ course.solver.constraints.listing, entry.2.isActive = true →
    ∃ command ∈ removals, command.removal? course.solver = some entry.1

instance (course : Course Rat) (removals : List (Command Rat)) :
    Decidable (course.Covers removals) :=
  inferInstanceAs (Decidable (∀ entry ∈ course.solver.constraints.listing, _))

theorem covers_iff (course : Course Rat) (removals : List (Command Rat)) : course.Covers removals ↔
    ∀ id, course.solver.Lives id →
      ∃ command ∈ removals, command.removal? course.solver = some id := by
  constructor
  · rintro covers id ⟨constraint, found, active⟩
    exact covers (id, constraint) ((course.solver.constraints.mem_listing_iff _ _).mpr found) active
  · rintro covers ⟨id, constraint⟩ member active
    exact covers id ⟨constraint,
      (course.solver.constraints.mem_listing_iff ⟨id, .external⟩ _).mp member, active⟩

/-- When the removals cover everything live, nothing lives after the last of them. -/
theorem Runs.live_eq_nil (runs : course.Runs (Allows ⟨false, false⟩) commands last)
    (reached : course.Reached ⟨false, false⟩)
    (removals : ∀ command ∈ commands, command.removes course.solver.identity = true)
    (covers : course.Covers commands) : last.solver.live = [] := by
  rw [covers_iff] at covers
  induction runs with
  | nil course =>
      rw [Solver.live_eq_nil_iff]
      intro id lives
      obtain ⟨_, none_left, _⟩ := covers id lives
      exact absurd none_left List.not_mem_nil
  | @cons course last command steps commands allowed rest inductionHypothesis =>
      obtain ⟨dwindled, idle, _⟩ :=
        reached.next_dwindled allowed (removals command List.mem_cons_self)
      apply inductionHypothesis (reached.step allowed)
      · intro later member
        rw [show (course.next command steps).solver.identity = course.solver.identity from
          dwindled.identity]
        exact removals later (List.mem_cons_of_mem _ member)
      · intro id lives
        obtain ⟨named, member, names⟩ := covers id (dwindled.of_lives reached.settled lives)
        rcases List.mem_cons.mp member with rfl | later
        · exact absurd lives (idle id names)
        · exact ⟨named, later, Command.removal?_of_dwindled reached.settled dwindled names lives⟩

/-- There is one row for every live constraint, the marker of every live constraint occurs in the
tableau, and taking all of them out in any order leaves the tableau empty. -/
structure RowsMatch (course : Course Rat) : Prop where
  counted : course.solver.rowCount = course.solver.live.length
  marked : ∀ key constraint, course.solver.constraints.get? key = some constraint →
    constraint.isActive = true →
      course.solver.tableau.isBasic constraint.markers.marker = true ∨
        ∃ row ∈ course.solver.tableau.equations,
          row.2.mentions constraint.markers.marker = true
  vacated : ∀ removals last, course.Runs (Allows ⟨false, false⟩) removals last →
    (∀ command ∈ removals, command.removes course.solver.identity = true) →
    course.Covers removals →
    last.solver.live = [] ∧ last.solver.rowCount = 0 ∧ last.solver.tableau.objective.terms = []

end Course

/-- After every history no row is lost and none is left over. -/
theorem rows_match_live (course : Course Rat) (reached : course.Reached ⟨false, false⟩) :
    course.RowsMatch := by
  obtain ⟨_, _, standing, _⟩ := reached.settled
  refine ⟨standing.rowCount_eq, fun _ _ => standing.marked,
    fun removals last runs takes covers => ?_⟩
  have none_live := runs.live_eq_nil reached takes covers
  obtain ⟨_, _, standing', _⟩ := Course.Reached.settled (reached.runs runs)
  exact ⟨none_live, standing'.vacant none_live⟩

/-- Removals that take everything out of the solver with a mingled history. The edit does not end
first, and one constraint is not live. -/
def Command.dismantling : List (Command Rat) :=
  [.withdrawConstraint ⟨5, 0⟩, .eraseConstraint ⟨6, 0⟩, .endEdit ⟨1, 0⟩,
    .withdrawConstraint ⟨1, 0⟩, .discardConstraint ⟨2, 0⟩, .withdrawConstraint ⟨3, 0⟩]

theorem rows_match_live_mingled : mingled.solver.rowCount = mingled.solver.live.length ∧
    (mingled.follow 20 Command.dismantling).solver.rowCount = 0 ∧
      (mingled.follow 20 Command.dismantling).solver.tableau.objective.terms = [] := by
  have rows := rows_match_live mingled reached_mingled
  have runs : mingled.Runs (Course.Allows ⟨false, false⟩) Command.dismantling
      (mingled.follow 20 Command.dismantling) := Course.runs_follow (by decide +kernel)
  exact ⟨rows.counted,
    (rows.vacated _ _ runs (by decide +kernel) (by decide +kernel)).2⟩

end SoftSimplex
