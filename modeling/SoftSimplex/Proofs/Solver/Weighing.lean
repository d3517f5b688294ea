import SoftSimplex.Proofs.Solver.Addition
import SoftSimplex.Proofs.Solver.Scripts
import SoftSimplex.Proofs.Solver.Settling
import SoftSimplex.Proofs.Solver.Wording

/-!
# Strengths are weights

Two wishes for one variable are written and added in some order. The strength of a constraint is a
weight in the one objective that all constraints share, so it is no rank: what counts is the weight
times the size of the coefficient that the wish was written with. If both pull equally hard, the wish
that was added first prevails.
-/

namespace SoftSimplex

variable {discipline : Discipline}

namespace Wish

variable {wish : Wish} {inside : VariableHandle}

/-- The constraint that a wish for a variable is written as. -/
def constraint (wish : Wish) (inside : VariableHandle) : Constraint Rat :=
  (((Constraint.blank ⟨wish.weight⟩).addTerm inside.symbol wish.coefficient).relate
    .equal).addConstant (wish.coefficient * wish.target)

/-- The commands that create a constraint for a wish and write it. -/
def script (wish : Wish) (handle : ConstraintHandle) (inside : VariableHandle) :
    List (Command Rat) :=
  [.createConstraint ⟨wish.weight⟩, .addTerm handle inside wish.coefficient,
    .setRelation handle .equal, .addConstant handle (wish.coefficient * wish.target)]

theorem constraint_inactive (wish : Wish) (inside : VariableHandle) :
    (wish.constraint inside).isActive = false := rfl

theorem reads_constraint (wish : Wish) (inside : VariableHandle) :
    Wording.Reads ⟨[.term inside wish.coefficient], some .equal,
      [.number (wish.coefficient * wish.target)]⟩ (wish.constraint inside) :=
  (((Wording.reads_blank ⟨wish.weight⟩).write (.term inside wish.coefficient)).relate rfl
    .equal).write (.number (wish.coefficient * wish.target))

theorem voices (wish : Wish) (present : inside.id ≠ 0) :
    (wish.constraint inside).Voices wish inside.symbol := by
  refine ⟨rfl, rfl, fun assignment => ?_⟩
  have under : inside.symbol.under assignment = assignment inside.symbol.id :=
    Symbol.under_of_ne_zero present assignment
  rw [(wish.reads_constraint inside).eval]
  simp only [Wording.value, Relation.net, Side.value, Contribution.value, List.map_cons,
    List.map_nil, List.sum_cons, List.sum_nil, under]
  ring

theorem mentions_addTerm (nonzero : wish.coefficient ≠ 0) (present : inside.id ≠ 0) :
    ((Constraint.blank ⟨wish.weight⟩).addTerm inside.symbol wish.coefficient).expression.mentions
      inside.symbol = true := by
  have at_unit : inside.symbol.under (Assignment.unit inside.symbol.id) = 1 :=
    (Symbol.under_of_ne_zero present _).trans (if_pos rfl)
  have plain : ∀ assignment,
      (Constraint.blank (⟨wish.weight⟩ : Strength Rat)).expression.eval assignment = 0 :=
    LinearForm.eval_ofConstant 0
  refine LinearForm.mentions_of_coefficient_ne_zero ?_
  rw [LinearForm.coefficient_eq _ present, ← LinearForm.eval_zero, Constraint.addTerm,
    LinearForm.eval_plus, LinearForm.eval_plus, plain, plain, at_unit, Symbol.under_zero]
  simpa using nonzero

theorem Sensible.orRequired (sensible : wish.Sensible) :
    (⟨wish.weight⟩ : Strength Rat).orRequired = ⟨wish.weight⟩ := by
  rw [Strength.orRequired, if_neg]
  rw [Action.negligible_iff]
  exact sensible.weight.ne'

end Wish

/-- A constraint for a wish mentions the variable. -/
theorem Constraint.Voices.not_over {constraint : Constraint Rat} {wish : Wish} {symbol : Symbol}
    (voices : constraint.Voices wish symbol) (sensible : wish.Sensible) :
    ¬ constraint.expression.Over fun other => other.id ≠ symbol.id := by
  intro spanned
  have unmoved := spanned.eval_set Assignment.zero 1
  rw [voices.eval, voices.eval, Assignment.set_same, Assignment.zero] at unmoved
  exact sensible.coefficient (by linarith)

/-- A wish is written as the newest constraint, however few steps are allotted. -/
theorem Course.Reached.carries_script {course : Course Rat} (reached : course.Reached discipline)
    {wish : Wish} (sensible : wish.Sensible) (inside : VariableHandle) (present : inside.id ≠ 0)
    (known : inside.owner = course.solver.identity) {state : Variable Rat}
    (registered : course.solver.unknowns.get? inside.symbol = some state) (handle : ConstraintHandle)
    (owned : handle.owner = course.solver.identity)
    (newest : handle.id = course.solver.lastConstraint + 1) (steps : Nat) :
    course.Carries steps (wish.script handle inside)
      (course.Writing discipline handle (wish.constraint inside)) := by
  have creates := reached.carries_create owned newest ⟨wish.weight⟩ sensible.weight.le steps
  rw [sensible.orRequired] at creates
  refine creates.append fun created blank => ?_
  refine (blank.carries (Command.completes_addTerm blank.writes owned rfl known registered rfl
    (Wish.mentions_addTerm sensible.coefficient present)) rfl rfl rfl steps).append
      fun _ added => ?_
  refine (added.carries (Command.completes_setRelation added.writes owned rfl rfl .equal) rfl rfl
    rfl steps).append fun _ related => ?_
  exact related.carries (Command.completes_addConstant related.writes owned rfl _) rfl rfl rfl steps

namespace Solver

variable {solver after : Solver Rat} {key symbol : Symbol} {constraint : Constraint Rat}
  {number : Nat} {wish : Wish} {offset : Nat → Rat}

/-- No constraint takes part. -/
def NoneLive (solver : Solver Rat) : Prop :=
  ∀ key constraint, solver.constraints.get? key = some constraint → constraint.isActive = false

/-- One constraint takes part. It stands for a wish, and none of its markers has a row. -/
structure Grants (number : Nat) (constraint : Constraint Rat) (wish : Wish) (symbol : Symbol)
    (solver : Solver Rat) : Prop where
  found : solver.constraints.get? ⟨number, .external⟩ = some constraint
  active : constraint.isActive = true
  alone : ∀ key other, solver.constraints.get? key = some other → other.isActive = true →
    key.id = number
  voices : constraint.Voices wish symbol
  free : ∀ {first second sign}, constraint.Twins first second sign →
    solver.tableau.form? first = none

theorem NoneLive.ledger (none_live : solver.NoneLive) (offset : Nat → Rat) :
    solver.constraints.ledger offset = [] := by
  refine List.eq_nil_iff_forall_not_mem.mpr fun entry member => ?_
  obtain ⟨key, constraint, found, active, _⟩ :=
    (solver.constraints.mem_ledger_iff offset entry).mp member
  exact Bool.noConfusion ((none_live key constraint found).symm.trans active)

theorem Grants.ledger (grants : solver.Grants number constraint wish symbol)
    (unmoved : offset number = 0) : solver.constraints.ledger offset = [constraint] := by
  have split := Catalog.ledger_perm_cons grants.found grants.active offset
  have others : (solver.constraints.erase ⟨number, .external⟩).ledger offset = [] := by
    refine List.eq_nil_iff_forall_not_mem.mpr fun entry member => ?_
    obtain ⟨key, other, found, active, _⟩ := (Catalog.mem_ledger_iff _ offset entry).mp member
    rw [Catalog.get?_erase] at found
    split at found
    · exact Option.some_ne_none _ found.symm
    · rename_i apart
      exact apart (grants.alone key other found active)
  rw [others, unmoved, Constraint.lowered_zero] at split
  exact List.perm_singleton.mp split

/-- What is live stays so while other constraints are written. -/
theorem Writes.noneLive (writes : Writes key constraint solver after)
    (inactive : constraint.isActive = false) (none_live : solver.NoneLive) : after.NoneLive := by
  intro sought other found
  rw [writes.constraints] at found
  split at found
  · rw [← Option.some.inj found]
    exact inactive
  · exact none_live sought other found

theorem Writes.grants {written : Constraint Rat} (writes : Writes key written solver after)
    (inactive : written.isActive = false) (apart : number ≠ key.id)
    (grants : solver.Grants number constraint wish symbol) :
    after.Grants number constraint wish symbol := by
  refine ⟨?_, grants.active, fun sought other found active => ?_, grants.voices, fun twins => ?_⟩
  · rw [writes.constraints, if_neg apart, grants.found]
  · rw [writes.constraints] at found
    split at found
    · rw [← Option.some.inj found, inactive] at active
      exact Bool.noConfusion active
    · exact grants.alone sought other found active
  · rw [writes.tableau]
    exact grants.free twins

end Solver

/-! ## Scenes -/

namespace Course

open Solver

variable {identity last number steps need : Nat} {course : Course Rat} {wish wish' : Wish}
  {waiting : List (Nat × Wish)}

/-- A solver has a variable, and sensible wishes for it have been written that take no part yet. -/
structure Scene (identity last : Nat) (waiting : List (Nat × Wish)) (course : Course Rat) :
    Prop where
  reached : course.Reached ⟨true, true⟩
  named : course.solver.identity = identity
  registered : ∃ state, course.solver.unknowns.get? ⟨1, .external⟩ = some state
  newest : course.solver.lastConstraint = last
  handed : ∀ key constraint, course.solver.constraints.get? key = some constraint →
    key.id ∈ course.issued
  waiting : ∀ pair ∈ waiting, pair.2.Sensible ∧
    course.solver.constraints.get? ⟨pair.1, .external⟩ = some (pair.2.constraint ⟨1, identity⟩)

namespace Scene

variable (scene : course.Scene identity last waiting)

include scene

theorem number_le {key : Symbol} {constraint : Constraint Rat}
    (found : course.solver.constraints.get? key = some constraint) : key.id ≤ last := by
  obtain ⟨_, _, standing, _⟩ := scene.reached.settled
  exact (standing.key_below key constraint found).trans_eq scene.newest

/-- It does not matter in which order the wishes are listed. -/
theorem listed {listed : List (Nat × Wish)} (within : ∀ pair ∈ listed, pair ∈ waiting) :
    course.Scene identity last listed :=
  { scene with waiting := fun pair member => scene.waiting pair (within pair member) }

/-- Another wish is written. -/
theorem write (sensible : wish.Sensible) (steps : Nat) :
    course.Carries steps (wish.script ⟨last + 1, identity⟩ ⟨1, identity⟩) fun after =>
      after.Scene identity (last + 1) ((last + 1, wish) :: waiting) ∧
        Writes ⟨last + 1, .external⟩ (wish.constraint ⟨1, identity⟩) course.solver
          after.solver := by
  obtain ⟨state, registered⟩ := scene.registered
  refine (scene.reached.carries_script sensible ⟨1, identity⟩ one_ne_zero scene.named.symm
    registered ⟨last + 1, identity⟩ scene.named.symm (congrArg Nat.succ scene.newest.symm)
      steps).mono fun after writing => ?_
  refine ⟨⟨writing.reached, writing.writes.identity.trans scene.named,
    writing.writes.registered _ state registered, writing.writes.lastConstraint,
    fun key constraint found => ?_, List.forall_mem_cons.mpr ⟨⟨sensible, writing.writes.found⟩,
      fun pair member => ?_⟩⟩, writing.writes⟩
  · rw [writing.issued]
    rw [writing.writes.constraints] at found
    split at found
    · rename_i is_newest
      exact is_newest ▸ List.mem_cons_self
    · exact List.mem_cons_of_mem _ (scene.handed key constraint found)
  · obtain ⟨sensible', found⟩ := scene.waiting pair member
    have below : pair.1 ≤ last := scene.number_le found
    have apart : pair.1 ≠ last + 1 := (Nat.lt_succ_of_le below).ne
    exact ⟨sensible', (writing.writes.constraints _).trans ((if_neg apart).trans found)⟩

end Scene

/-- A wish that waits is added. What its activation comes to is what the command does. -/
theorem Scene.add (scene : course.Scene identity last ((number, wish) :: waiting))
    (apart : number ∉ waiting.map Prod.fst) (answered : Solver Rat → Prop)
    (activates : ∀ {kinds offset}, course.solver.Standing ⟨true, true⟩ kinds offset →
      (∀ id ∈ course.issued, offset id = 0) →
        (Action.activate ⟨number, .external⟩).Completes course.solver need fun _ => answered)
    (enough : need ≤ steps) :
    course.Carries steps [.addConstraint ⟨number, identity⟩] fun after =>
      after.Scene identity last waiting ∧ answered after.solver := by
  obtain ⟨kinds, offset, standing, editing⟩ := scene.reached.settled
  obtain ⟨⟨_, there⟩, others⟩ := List.forall_mem_cons.mp scene.waiting
  have issued : number ∈ course.issued := scene.handed _ _ there
  have found : course.solver.findConstraint ⟨number, identity⟩ =
      .ok (wish.constraint ⟨1, identity⟩) := findConstraint_of_get? scene.named.symm there
  have completes : (Command.addConstraint ⟨number, identity⟩).action.Completes course.solver need
      fun _ => answered := by
    refine Action.Completes.afterwards (Action.Completes.read_bind
      (Action.Completes.granted_bind found ?_)) fun _ _ holds => Action.Completes.pure holds
    exact activates standing fun id => editing.offset_eq_zero standing.toOrderly
  have own : ∀ handle ∈ (Command.addConstraint ⟨number, identity⟩ : Command Rat).named,
      handle.id ∈ course.issued := by
    intro handle member
    rw [List.mem_singleton.mp member]
    exact issued
  obtain ⟨answers, reached, reply, holds, handed⟩ := scene.reached.carries completes enough own
    (fun _ member => absurd member List.not_mem_nil) rfl
  obtain ⟨reply', is_reply⟩ := answers.1
  have ends := (Command.yields_add standing editing found rfl).perform steps
  rw [is_reply] at ends
  obtain ⟨_, activated⟩ := ends
  obtain ⟨state, registered⟩ := scene.registered
  have outline := activated.outline ⟨1, .external⟩
  rw [registered, Option.map_some] at outline
  obtain ⟨state', registered', _⟩ := Option.map_eq_some_iff.mp outline
  refine ⟨answers, ⟨reached, activated.identity.trans scene.named, ⟨state', registered'⟩,
    activated.lastConstraint.trans scene.newest, fun key constraint found' => ?_,
      fun pair member => ?_⟩, holds⟩
  · rw [handed]
    refine List.mem_append_right _ ?_
    by_cases same : key.id = number
    · exact same ▸ issued
    · exact scene.handed key constraint ((activated.constraints key same).symm.trans found')
  · obtain ⟨sensible, found'⟩ := others pair member
    have elsewhere : pair.1 ≠ number := fun same => apart (List.mem_map.mpr ⟨pair, member, same⟩)
    exact ⟨sensible, (activated.constraints _ elsewhere).trans found'⟩

/-- The first wish is granted, however few steps are allotted. -/
theorem Scene.add_first (scene : course.Scene identity last ((number, wish) :: waiting))
    (apart : number ∉ waiting.map Prod.fst) (none_live : course.solver.NoneLive) (steps : Nat) :
    course.Carries steps [.addConstraint ⟨number, identity⟩] fun after =>
      after.Scene identity last waiting ∧
        ∃ constraint, after.solver.Grants number constraint wish ⟨1, .external⟩ := by
  obtain ⟨⟨sensible, found⟩, _⟩ := List.forall_mem_cons.mp scene.waiting
  obtain ⟨state, registered⟩ := scene.registered
  have voices : (wish.constraint ⟨1, identity⟩).Voices wish ⟨1, .external⟩ :=
    wish.voices one_ne_zero
  refine scene.add apart (fun after => ∃ constraint,
    after.Grants number constraint wish ⟨1, .external⟩) (fun standing _ => ?_) (Nat.zero_le steps)
  refine (standing.completes_first found (none_live.ledger _) voices sensible registered rfl).mono
    fun _ after settled => ⟨course.solver.marking (wish.constraint ⟨1, identity⟩), ?_,
      course.solver.marking_active _, fun key other there active => ?_,
      voices_marking voices course.solver, settled.2⟩
  · rw [settled.1]
    exact get?_prepared found
  · rw [settled.1] at there
    rcases of_get?_prepared found there with ⟨same, _⟩ | before
    · exact same
    · exact Bool.noConfusion ((none_live key other before).symm.trans active)

/-- After the second wish has been added the tableau grants the one that pulls harder. -/
theorem Scene.add_second (scene : course.Scene identity last ((number, wish') :: waiting))
    (apart : number ∉ waiting.map Prod.fst) (sensible : wish.Sensible) {number' : Nat}
    {constraint : Constraint Rat}
    (grants : course.solver.Grants number' constraint wish ⟨1, .external⟩) (enough : 1 ≤ steps) :
    course.Carries steps [.addConstraint ⟨number, identity⟩] fun after =>
      after.Scene identity last waiting ∧ ¬ after.solver.Quiet 1 ∧
        after.solver.tableau.value ⟨1, .external⟩ =
          if wish'.pull ≤ wish.pull then wish.target else wish'.target := by
  obtain ⟨⟨sensible', found⟩, _⟩ := List.forall_mem_cons.mp scene.waiting
  have voices : (wish'.constraint ⟨1, identity⟩).Voices wish' ⟨1, .external⟩ :=
    wish'.voices one_ne_zero
  refine scene.add apart (fun after => ¬ after.Quiet 1 ∧ after.tableau.value ⟨1, .external⟩ =
    if wish'.pull ≤ wish.pull then wish.target else wish'.target) (fun standing unmoved => ?_) enough
  refine (standing.completes_second found (grants.ledger
    (unmoved number' (scene.handed _ _ grants.found))) grants.voices sensible grants.free voices
      sensible').mono fun _ after settled => ⟨fun quiet => ?_, settled.2⟩
  have there : after.constraints.get? ⟨number, .external⟩ =
      some (course.solver.marking (wish'.constraint ⟨1, identity⟩)) := by
    rw [settled.1]
    exact get?_prepared found
  exact (voices_marking voices course.solver).not_over sensible'
    (quiet _ _ there (course.solver.marking_active _))

/-- Refreshing the caches makes the solved value of the variable its value. -/
theorem Scene.refresh (scene : course.Scene identity last waiting)
    (busy : ¬ course.solver.Quiet 1) (steps : Nat) :
    course.Carries steps [.refresh] fun after =>
      after.solver.valueOf ⟨1, identity⟩ = course.solver.tableau.value ⟨1, .external⟩ := by
  obtain ⟨_, _, standing, _⟩ := scene.reached.settled
  obtain ⟨state, registered⟩ := scene.registered
  have found : course.solver.findVariable ⟨1, identity⟩ = .ok state :=
    findVariable_of_get? scene.named.symm registered
  have completes : (Command.refresh : Command Rat).action.Completes course.solver 0
      fun _ after => after = course.solver.refresh :=
    Action.Completes.update_bind (Action.Completes.pure rfl)
  refine (scene.reached.carries completes (Nat.zero_le steps) (fun _ member =>
    absurd member List.not_mem_nil) (fun _ member => absurd member List.not_mem_nil) rfl).mono ?_
  rintro after ⟨_, _, is_refreshed, _⟩
  rw [is_refreshed]
  exact standing.watched.valueOf_refresh found busy

/-- Once one wish is granted and only the other one waits, everything ends alike. -/
theorem Scene.add_last {second : Wish} (scene : course.Scene identity last [(number, second)])
    {first : Wish} (sensible : first.Sensible) {number' : Nat} {constraint : Constraint Rat}
    (grants : course.solver.Grants number' constraint first ⟨1, .external⟩) (enough : 1 ≤ steps) :
    course.Carries steps ([.addConstraint ⟨number, identity⟩] ++ [.refresh]) fun after =>
      after.solver.valueOf ⟨1, identity⟩ =
        if second.pull ≤ first.pull then first.target else second.target := by
  refine (scene.add_second (by simp) sensible grants enough).append ?_
  rintro _ ⟨scene, busy, value⟩
  exact (scene.refresh busy steps).mono fun _ refreshed => refreshed.trans value

end Course

/-! ## Two wishes in some order -/

/-- When two wishes are written and added. -/
inductive Order where
  /-- Each wish is added as soon as it is written. -/
  | inTurn
  /-- Both are written, and then added in the order in which they were written. -/
  | asWritten
  /-- Both are written, and then the one that was written last is added first. -/
  | crosswise

/-- The commands that create a variable, write two wishes for it and add the first one first, and
refresh the caches. -/
def Order.commands (order : Order) (identity : Nat) (first second : Wish) : List (Command Rat) :=
  let inside : VariableHandle := ⟨1, identity⟩
  let older : ConstraintHandle := ⟨1, identity⟩
  let newer : ConstraintHandle := ⟨2, identity⟩
  match order with
  | inTurn => [.createVariable] ++ (first.script older inside ++ ([.addConstraint older] ++
      (second.script newer inside ++ ([.addConstraint newer] ++ [.refresh]))))
  | asWritten => [.createVariable] ++ (first.script older inside ++ (second.script newer inside ++
      ([.addConstraint older] ++ ([.addConstraint newer] ++ [.refresh]))))
  | crosswise => [.createVariable] ++ (second.script older inside ++ (first.script newer inside ++
      ([.addConstraint newer] ++ ([.addConstraint older] ++ [.refresh]))))

namespace Course

open Solver

/-- A new solver with a variable. -/
theorem carries_createVariable (identity : Nat) (options : Options) (steps : Nat) :
    (start identity options).Carries steps [.createVariable] fun after =>
      after.Scene identity 0 [] ∧ after.solver.NoneLive := by
  have completes : (Command.createVariable : Command Rat).action.Completes
      (start identity options).solver 0 fun _ after =>
        after = (start identity options).solver.grown :=
    Action.Completes.map (Action.Completes.read_bind
      (Action.Completes.update_bind (Action.Completes.pure rfl)))
  have reached : (start identity options).Reached ⟨true, true⟩ := .start identity options
  refine (reached.carries completes (Nat.zero_le steps) (fun _ member =>
    absurd member List.not_mem_nil) (fun _ member => absurd member List.not_mem_nil) rfl).mono ?_
  rintro after ⟨reached, _, is_grown, _⟩
  have no_constraint : ∀ key constraint, after.solver.constraints.get? key ≠ some constraint := by
    intro key constraint found
    rw [is_grown] at found
    exact Option.some_ne_none _ found.symm
  refine ⟨⟨reached, ?_, ⟨Variable.fresh, ?_⟩, ?_, fun key constraint found =>
    absurd found (no_constraint key constraint), fun _ member => absurd member List.not_mem_nil⟩,
    fun key constraint found => absurd found (no_constraint key constraint)⟩
  · rw [is_grown]
    rfl
  · rw [is_grown, get?_grown]
    rfl
  · rw [is_grown]
    rfl

/-- A new solver with a variable and two wishes for it. -/
theorem carries_scripts (identity : Nat) (options : Options) {older newer : Wish}
    (sensible : older.Sensible) (sensible' : newer.Sensible) {steps : Nat}
    {rest : List (Command Rat)} {goal : Course Rat → Prop}
    (later : ∀ after : Course Rat, after.Scene identity 2 [(2, newer), (1, older)] →
      after.solver.NoneLive → after.Carries steps rest goal) :
    (start identity options).Carries steps ([.createVariable] ++
      (older.script ⟨1, identity⟩ ⟨1, identity⟩ ++
        (newer.script ⟨2, identity⟩ ⟨1, identity⟩ ++ rest))) goal := by
  refine (carries_createVariable identity options steps).append ?_
  rintro _ ⟨scene, none_live⟩
  refine (scene.write sensible steps).append ?_
  rintro _ ⟨scene, writes⟩
  refine (scene.write sensible' steps).append ?_
  rintro after ⟨scene, writes'⟩
  exact later after scene (writes'.noneLive (newer.constraint_inactive _)
    (writes.noneLive (older.constraint_inactive _) none_live))

end Course

open Course

/-- Of two wishes for a variable of a new solver the one that pulls harder is granted, by its weight
times the size of its coefficient, and the one that was added first if both pull equally hard. No
call is refused or pauses, provided that a single step is allotted. -/
theorem harder_pull_wins (identity : Nat) (options : Options) {first second : Wish}
    (sensible : first.Sensible) (sensible' : second.Sensible) (order : Order) {steps : Nat}
    (enough : 1 ≤ steps) :
    (Course.start identity options).Answers steps (order.commands identity first second) ∧
      ((Course.start identity options).follow steps
        (order.commands identity first second)).solver.valueOf ⟨1, identity⟩ =
          if second.pull ≤ first.pull then first.target else second.target := by
  change (start identity options).Carries steps (order.commands identity first second) fun after =>
    after.solver.valueOf ⟨1, identity⟩ =
      if second.pull ≤ first.pull then first.target else second.target
  cases order with
  | inTurn =>
      refine (carries_createVariable identity options steps).append ?_
      rintro _ ⟨scene, none_live⟩
      refine (scene.write sensible steps).append ?_
      rintro _ ⟨scene, writes⟩
      refine (scene.add_first (by simp) (writes.noneLive (first.constraint_inactive _) none_live)
        steps).append ?_
      rintro _ ⟨scene, constraint, grants⟩
      refine (scene.write sensible' steps).append ?_
      rintro _ ⟨scene, writes⟩
      exact scene.add_last sensible (writes.grants (second.constraint_inactive _) (by decide) grants)
        enough
  | asWritten =>
      refine carries_scripts identity options sensible sensible' fun both scene none_live => ?_
      have listed := scene.listed fun _ => (List.Perm.swap _ _ []).mem_iff.mp
      refine (listed.add_first (by simp) none_live steps).append ?_
      rintro _ ⟨scene, constraint, grants⟩
      exact scene.add_last sensible grants enough
  | crosswise =>
      refine carries_scripts identity options sensible' sensible fun both scene none_live => ?_
      refine (scene.add_first (by simp) none_live steps).append ?_
      rintro _ ⟨scene, constraint, grants⟩
      exact scene.add_last sensible grants enough

/-- The variable shall be zero, at the weight two. -/
def strongWish : Wish := ⟨1, 0, 2⟩

/-- Eight times the variable shall be eight, at the weight one. -/
def steepWish : Wish := ⟨8, 1, 1⟩

theorem sensible_strongWish : strongWish.Sensible :=
  ⟨one_ne_zero, two_pos, by decide +kernel⟩

theorem sensible_steepWish : steepWish.Sensible :=
  ⟨by decide +kernel, one_pos, by decide +kernel⟩

/-- The steep wish has the smaller weight and pulls four times as hard. -/
theorem harder_pull_wins_steep :
    (Course.start 0 {}).Answers 1 (Order.inTurn.commands 0 strongWish steepWish) ∧
      ((Course.start 0 {}).follow 1
        (Order.inTurn.commands 0 strongWish steepWish)).solver.valueOf ⟨1, 0⟩ = 1 := by
  obtain ⟨answers, value⟩ := harder_pull_wins 0 {} sensible_strongWish sensible_steepWish .inTurn
    le_rfl
  exact ⟨answers, value.trans (by decide +kernel)⟩

/-- The strength alone does not decide. -/
theorem stronger_wish_may_lose :
    ¬ ∀ stronger weaker : Wish, stronger.Sensible → weaker.Sensible →
      weaker.weight < stronger.weight → ∀ order : Order,
        ((Course.start 0 {}).follow 20 (order.commands 0 stronger weaker)).solver.valueOf ⟨1, 0⟩ =
          stronger.target := by
  intro always
  have value := always strongWish steepWish sensible_strongWish sensible_steepWish
    (by decide +kernel) .inTurn
  exact absurd value (by decide +kernel)

end SoftSimplex
