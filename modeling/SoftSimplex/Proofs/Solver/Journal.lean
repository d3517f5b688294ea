import SoftSimplex.Proofs.Solver.Keeping
import SoftSimplex.Proofs.Tableau.Turns

/-!
# Journals

The journal of an action tells all turns that it takes on the tableau, from whatever session it
starts. It comes with a proof that nothing is left out: the turns are linked, from the tableau that
the action finds to the one that it leaves behind, whether it answers, is refused or pauses. So an
action is silent only if it leaves rows and objective alone. Journals are put together along the
parts of an action, and so are proofs that a claim which composes is true of their turns.
-/

namespace SoftSimplex

variable {α : Type}

namespace Action

variable {ρ τ : Type} {action other : Action α ρ}

/-- The solver that an action leaves behind. -/
def left : EStateM.Result Interrupt (Session α) ρ → Solver α
  | .ok _ session => session.solver
  | .error _ session => session.solver

theorem left_attempt (action : Action α ρ) (session : Session α) :
    left (Action.attempt action session) = left (action session) := by
  unfold Action.attempt
  cases action session with
  | ok result between => rfl
  | error interrupt between => cases interrupt <;> rfl

theorem left_map (change : ρ → τ) (action : Action α ρ) (session : Session α) :
    left ((change <$> action) session) = left (action session) := by
  simp only [Functor.map, EStateM.map]
  cases action session <;> rfl

theorem left_perform [Scalar α] (solver : Solver α) (command : Command α) (steps : Nat) :
    left (command.action ⟨solver, steps⟩) = (solver.perform command steps).2 := by
  unfold Solver.perform
  cases command.action ⟨solver, steps⟩ with
  | ok reply session => rfl
  | error interrupt session => cases interrupt <;> rfl

/-- However the action ends, it leaves the rows and the objective that it has found. -/
def Still (action : Action α ρ) : Prop :=
  ∀ session : Session α, session.solver.tableau.Alike (left (action session)).tableau

namespace Still

theorem pure (result : ρ) : Still (Pure.pure result : Action α ρ) :=
  fun session => .refl session.solver.tableau

theorem refuse (reason : Refusal) : Still (Action.refuse reason : Action α ρ) :=
  fun session => .refl session.solver.tableau

theorem read : Still (Action.read : Action α (Solver α)) :=
  fun session => .refl session.solver.tableau

theorem update {change : Solver α → Solver α}
    (same : ∀ solver, (change solver).tableau = solver.tableau) :
    Still (Action.update change) := by
  intro session
  change session.solver.tableau.Alike (change session.solver).tableau
  rw [same]
  exact .refl _

theorem demand (demanded : Except Refusal ρ) : Still (Action.demand demanded : Action α ρ) := by
  cases demanded with
  | ok result => exact .pure result
  | error reason => exact .refuse reason

theorem bind {following : ρ → Action α τ} (first : Still action)
    (second : ∀ result, Still (following result)) : Still (action >>= following) := by
  intro session
  have here := first session
  revert here
  simp only [Bind.bind, EStateM.bind]
  cases action session with
  | ok result between => exact fun here => here.trans (second result between)
  | error interrupt between => exact id

end Still

theorem still_replaceConstraint (handle : ConstraintHandle) (constraint : Constraint α) :
    Still (replaceConstraint handle constraint) :=
  .update fun _ => rfl

theorem still_dropReference (symbol : Symbol) :
    Still (dropReference symbol : Action α (Option Symbol)) := by
  apply Still.bind .read
  intro solver
  cases solver.unknowns.get? symbol with
  | none => exact .pure none
  | some state =>
      dsimp only
      split <;> exact .bind (.update fun _ => rfl) fun _ => .pure _

theorem still_forgetEdits : Still (forgetEdits : Action α (List Symbol)) :=
  .bind .read fun _ => .bind (.update fun _ => rfl) fun _ => .pure _

variable [Scalar α]

theorem still_createConstraint (strength : Strength α) :
    Still (createConstraint strength : Action α ConstraintHandle) :=
  .bind .read fun _ => .bind (.update fun _ => rfl) fun _ => .pure _

theorem still_addConstant (handle : ConstraintHandle) (constant : α) :
    Still (addConstant handle constant) :=
  .bind .read fun _ => .bind (.demand _) fun _ => still_replaceConstraint handle _

theorem still_setRelation (handle : ConstraintHandle) (relation : Relation) :
    Still (setRelation handle relation : Action α Unit) := by
  apply Still.bind .read
  intro solver
  apply Still.bind (.demand _)
  intro constraint
  split
  · exact .refuse _
  · exact still_replaceConstraint handle _

theorem still_refreshAll : Still (refreshAll : Action α Unit) := .update fun _ => rfl

theorem still_refreshIfAutomatic : Still (refreshIfAutomatic : Action α Unit) :=
  .update fun solver => by split <;> rfl

/-! ## Journals -/

/-- The turns that an action takes, in this order, when it starts from a session. Nothing else
happens to rows and objective. -/
structure Journal (action : Action α ρ) where
  turns : Session α → List (Turn α)
  linked : ∀ session, Turn.Linked session.solver.tableau (turns session)
    (left (action session)).tableau

namespace Journal

/-- No turn is taken. -/
def silent (still : Still action) : Journal action := ⟨fun _ => [], still⟩

/-- An action is followed by another one, unless it is interrupted. -/
def bind {following : ρ → Action α τ} (first : Journal action)
    (second : ∀ result, Journal (following result)) : Journal (action >>= following) where
  turns session :=
    first.turns session ++
      match action session with
      | .ok result session => (second result).turns session
      | .error _ _ => []
  linked session := by
    have here := first.linked session
    revert here
    simp only [Bind.bind, EStateM.bind]
    cases action session with
    | ok result between => exact fun here => here.append ((second result).linked between)
    | error interrupt between =>
        intro here
        rw [List.append_nil]
        exact here

/-- The solver is read before. -/
def reading {following : Solver α → Action α ρ}
    (second : ∀ solver, Journal (following solver)) : Journal (read >>= following) :=
  bind (silent .read) second

/-- The solver is read, and what follows takes turns that depend on it only. -/
def consulting {following : Solver α → Action α ρ} (turns : Solver α → List (Turn α))
    (linked : ∀ solver steps, Turn.Linked solver.tableau (turns solver)
      (left (following solver ⟨solver, steps⟩)).tableau) : Journal (read >>= following) where
  turns session := turns session.solver
  linked session := linked session.solver session.steps

/-- A silent action comes before. -/
def after {first : Action α ρ} (still : Still first) {following : ρ → Action α τ}
    (second : ∀ result, Journal (following result)) : Journal (first >>= following) :=
  bind (silent still) second

/-- A silent action comes afterwards. -/
def before {following : ρ → Action α τ} (first : Journal action)
    (still : ∀ result, Still (following result)) : Journal (action >>= following) where
  turns := first.turns
  linked session := by
    have here := first.linked session
    revert here
    simp only [Bind.bind, EStateM.bind]
    cases action session with
    | ok result between => exact fun here => Turn.Composes.then_alike here (still result between)
    | error interrupt between => exact id

/-- One of two actions is chosen. -/
def branch {condition : Prop} [Decidable condition] (yes : Journal action)
    (no : Journal other) : Journal (if condition then action else other) where
  turns session := if condition then yes.turns session else no.turns session
  linked session := by
    split
    · exact yes.linked session
    · exact no.linked session

/-- A refusal is turned into a result. -/
def attempt (tried : Journal action) : Journal (Action.attempt action) where
  turns := tried.turns
  linked session := by
    rw [left_attempt]
    exact tried.linked session

/-- The result is changed. -/
def map {change : ρ → τ} (plain : Journal action) : Journal (change <$> action) where
  turns := plain.turns
  linked session := by
    rw [left_map]
    exact plain.linked session

/-- An action for each item of a list. -/
def forM {σ : Type} {round : σ → Action α PUnit} (rounds : ∀ item, Journal (round item)) :
    (items : List σ) → Journal (items.forM round)
  | [] => silent (.pure _)
  | item :: rest => (rounds item).bind fun _ => forM rounds rest

/-- The tableau goes through some changes, and the rest of the solver may change along. -/
def update {change : Solver α → Solver α} (occasion : Occasion)
    (changes : Solver α → List (Change α))
    (spelled : ∀ solver, (Change.runAll (changes solver) solver.tableau).Alike
      (change solver).tableau) : Journal (Action.update change) where
  turns session := Turn.series occasion session.solver.tableau (changes session.solver)
  linked session := Turn.Composes.then_alike (.series _ _ _) (spelled session.solver)

/-- The tableau goes through some changes, and caches that this concerns are marked. -/
def rework {change : Tableau α → Tableau α} (occasion : Occasion)
    (changes : Tableau α → List (Change α))
    (spelled : ∀ tableau, Change.runAll (changes tableau) tableau = change tableau) :
    Journal (Action.rework change) :=
  update occasion (fun solver => changes solver.tableau) fun solver => by
    rw [spelled, Solver.adopt_tableau]
    exact Tableau.alike_told _

/-! ## What is true of all turns -/

section Claims

variable {claim : Tableau α → List (Turn α) → Tableau α → Prop} {solver : Solver α}

/-- Whatever the allotment of steps, the claim is true of the turns that are taken from a solver
on. -/
def Ensures (claim : Tableau α → List (Turn α) → Tableau α → Prop) (journal : Journal action)
    (solver : Solver α) : Prop :=
  ∀ steps, claim solver.tableau (journal.turns ⟨solver, steps⟩)
    (left (action ⟨solver, steps⟩)).tableau

variable [Turn.Composes claim]

omit [Scalar α] in
/-- A tableau is taken over with the caches that it concerns marked. -/
theorem claim_adopt {turns : List (Turn α)} {tableau : Tableau α}
    (true_of : claim solver.tableau turns tableau) :
    claim solver.tableau turns (solver.adopt tableau).tableau := by
  rw [Solver.adopt_tableau]
  exact Turn.Composes.then_alike true_of (Tableau.alike_told tableau)

namespace Ensures

variable {journal : Journal action}

theorem silent {still : Still action} : (Journal.silent still).Ensures claim solver :=
  fun steps => Turn.Composes.still (still ⟨solver, steps⟩)

theorem bind {first : Journal action} {following : ρ → Action α τ}
    {second : ∀ result, Journal (following result)} {between : ρ → Solver α → Prop}
    {refused : Refusal → Solver α → Prop} {paused : Solver α → Prop}
    (here : first.Ensures claim solver) (meets : action.Meets solver between refused paused)
    (there : ∀ result after, between result after → (second result).Ensures claim after) :
    (first.bind second).Ensures claim solver := by
  intro steps
  have now := here steps
  have met := meets steps
  revert now met
  simp only [Journal.bind, Bind.bind, EStateM.bind]
  cases action ⟨solver, steps⟩ with
  | ok result session =>
      exact fun now met => Turn.Composes.append now (there result session.solver met session.steps)
  | error interrupt session =>
      intro now _
      rw [List.append_nil]
      exact now

omit [Turn.Composes claim] in
theorem reading {following : Solver α → Action α ρ} {second : ∀ solver, Journal (following solver)}
    (ensures : (second solver).Ensures claim solver) :
    (Journal.reading second).Ensures claim solver :=
  ensures

/-- A silent action comes before. -/
theorem after {first : Action α ρ} {still : Still first} {following : ρ → Action α τ}
    {second : ∀ result, Journal (following result)} {between : ρ → Solver α → Prop}
    {refused : Refusal → Solver α → Prop} {paused : Solver α → Prop}
    (meets : first.Meets solver between refused paused)
    (there : ∀ result after, between result after → (second result).Ensures claim after) :
    (Journal.after still second).Ensures claim solver :=
  bind silent meets there

/-- An update of the solver comes before. -/
theorem after_update {change : Solver α → Solver α} {still : Still (Action.update change)}
    {following : Unit → Action α ρ} {second : ∀ result, Journal (following result)}
    (ensures : (second ()).Ensures claim (change solver)) :
    (Journal.after still second).Ensures claim solver :=
  fun steps => Turn.Composes.of_alike (ensures steps) (still ⟨solver, steps⟩)

theorem after_demand {demanded : Except Refusal ρ} {still : Still (Action.demand demanded)}
    {following : ρ → Action α τ} {second : ∀ result, Journal (following result)}
    (accepted : ∀ value, demanded = .ok value → (second value).Ensures claim solver) :
    (Journal.after still second).Ensures claim solver := by
  cases demanded with
  | ok value => exact accepted value rfl
  | error reason => exact fun _ => Turn.Composes.still (.refl _)

/-- A silent action comes afterwards. -/
theorem before {first : Journal action} {following : ρ → Action α τ}
    {still : ∀ result, Still (following result)} (ensures : first.Ensures claim solver) :
    (first.before still).Ensures claim solver := by
  intro steps
  have here := ensures steps
  revert here
  simp only [Journal.before, Bind.bind, EStateM.bind]
  cases action ⟨solver, steps⟩ with
  | ok result between => exact fun here => Turn.Composes.then_alike here (still result between)
  | error interrupt between => exact id

omit [Turn.Composes claim] in
theorem branch {condition : Prop} [Decidable condition] {yes : Journal action}
    {no : Journal other} (holds : condition → yes.Ensures claim solver)
    (fails : ¬ condition → no.Ensures claim solver) :
    (Journal.branch yes no : Journal (if condition then action else other)).Ensures claim
      solver := by
  intro steps
  simp only [Journal.branch]
  split
  · rename_i decided
    exact holds decided steps
  · rename_i decided
    exact fails decided steps

omit [Turn.Composes claim] in
theorem attempt (ensures : journal.Ensures claim solver) :
    journal.attempt.Ensures claim solver := by
  intro steps
  rw [left_attempt]
  exact ensures steps

omit [Turn.Composes claim] in
theorem map {change : ρ → τ} (ensures : journal.Ensures claim solver) :
    (journal.map : Journal (change <$> action)).Ensures claim solver := by
  intro steps
  rw [left_map]
  exact ensures steps

theorem update {change : Solver α → Solver α} {occasion : Occasion}
    {changes : Solver α → List (Change α)}
    {spelled : ∀ solver, (Change.runAll (changes solver) solver.tableau).Alike
      (change solver).tableau}
    (here : claim solver.tableau (Turn.series occasion solver.tableau (changes solver))
      (Change.runAll (changes solver) solver.tableau)) :
    (Journal.update occasion changes spelled).Ensures claim solver :=
  fun _ => Turn.Composes.then_alike here (spelled solver)

theorem rework {change : Tableau α → Tableau α} {occasion : Occasion}
    {changes : Tableau α → List (Change α)}
    {spelled : ∀ tableau, Change.runAll (changes tableau) tableau = change tableau}
    (here : claim solver.tableau (Turn.series occasion solver.tableau (changes solver.tableau))
      (change solver.tableau)) :
    (Journal.rework occasion changes spelled).Ensures claim solver :=
  fun _ => claim_adopt here

/-- A change of the tableau, and what follows it. -/
theorem rework_bind {change : Tableau α → Tableau α} {occasion : Occasion}
    {changes : Tableau α → List (Change α)}
    {spelled : ∀ tableau, Change.runAll (changes tableau) tableau = change tableau}
    {following : Unit → Action α ρ} {second : ∀ result, Journal (following result)}
    (here : claim solver.tableau (Turn.series occasion solver.tableau (changes solver.tableau))
      (change solver.tableau))
    (there : (second ()).Ensures claim (solver.adopt (change solver.tableau))) :
    ((Journal.rework occasion changes spelled : Journal (Action.rework change)).bind
      second).Ensures claim solver := by
  have reworks : (Action.rework change).Meets solver
      (fun _ after => after = solver.adopt (change solver.tableau)) (fun _ _ => False)
      fun _ => False := Meets.update rfl
  apply (rework here).bind reworks
  rintro _ _ rfl
  exact there

end Ensures

/-- A phase leaves the tableau behind that its turns lead to. -/
theorem claim_descend {goal? : Option (LinearForm α)} {steps : Nat}
    (descends : claim solver.tableau (solver.tableau.descendTurns steps goal?)
      (solver.tableau.descend steps goal?).state.tableau) :
    claim solver.tableau (solver.tableau.descendTurns steps goal?)
      (left (Action.descend goal? ⟨solver, steps⟩)).tableau := by
  have told := claim_adopt descends
  unfold Action.descend
  dsimp only
  split <;> exact told

theorem claim_repair {steps : Nat}
    (repairs : claim solver.tableau (solver.tableau.repairTurns steps)
      (solver.tableau.repair steps).state) :
    claim solver.tableau (solver.tableau.repairTurns steps)
      (left (Action.repair ⟨solver, steps⟩)).tableau := by
  have told := claim_adopt repairs
  unfold Action.repair
  dsimp only
  split <;> exact told

end Claims

/-! ## Work on the tableau -/

/-- The primal phase takes its turns within the steps that are left. -/
def descend (goal? : Option (LinearForm α)) : Journal (Action.descend goal?) where
  turns session := session.solver.tableau.descendTurns session.steps goal?
  linked _ := claim_descend (Tableau.linked_descendTurns _ _ _)

/-- The dual phase takes its turns within the steps that are left. -/
def repair : Journal (Action.repair : Action α Unit) where
  turns session := session.solver.tableau.repairTurns session.steps
  linked _ := claim_repair (Tableau.linked_repairTurns _ _)

/-- Both phases. -/
def optimize : Journal (Action.optimize : Action α Unit) :=
  (descend none).bind fun _ => repair

/-- Both phases and the refresh that may follow. -/
def settle : Journal (do Action.optimize; refreshIfAutomatic : Action α Unit) :=
  optimize.before fun _ => still_refreshIfAutomatic

/-- The markers of a constraint are drawn, and its fresh errors are priced. -/
def prepare (key : Symbol) (constraint : Constraint α) : Journal (Action.prepare key constraint) :=
  reading fun solver =>
    (update .pricing (fun _ => [.chargeFresh (solver.marking constraint).markers.errors
      constraint.strength.weight]) fun before => by
        rw [(before.marked_terms constraint).rest]
        exact .refl _).before fun _ => .pure _

/-- The price of a constraint that takes part is refunded. -/
def strip (key : Symbol) : Journal (Action.strip key : Action α (Option Symbol)) :=
  reading fun solver =>
    match solver.constraints.get? key with
    | none => silent (.pure _)
    | some constraint =>
        branch
          ((update .pricing (fun _ => [.charge constraint.markers.errors
            (-constraint.strength.weight), .settle]) fun _ => .refl _).before fun _ => .pure _)
          (silent (.pure _))

/-- The artificial symbol leaves the basis. -/
def freeArtificial (artificial : Symbol) :
    Journal (Action.freeArtificial artificial : Action α Bool) :=
  consulting (fun solver =>
      Turn.series .trying solver.tableau (solver.tableau.freeingChanges artificial))
    fun solver steps => by
      unfold Tableau.freeingChanges
      rw [Tableau.take?_eq]
      cases solver.tableau.form? artificial with
      | none => exact .refl _
      | some remaining =>
          simp only [Option.map_some]
          split
          · exact claim_adopt (.series .trying [.take artificial] solver.tableau)
          · cases remaining.restricted? with
            | none => exact claim_adopt (.series .trying [.take artificial] solver.tableau)
            | some entering =>
                exact claim_adopt (.series .trying (Change.exchange remaining entering artificial)
                  solver.tableau)

/-- A row is tried at an artificial symbol, which is lowered, made free and forgotten. -/
def placeArtificially (form : LinearForm α) : Journal (Action.placeArtificially form) :=
  reading fun solver => after (.update fun _ => by rfl) fun _ =>
    (rework .trying (fun _ => [.put (solver.symbols.draw .slack).1 form])
        fun _ => by rfl).bind fun _ =>
      (descend (some form)).bind fun (_, _) =>
        (freeArtificial (solver.symbols.draw .slack).1).bind fun _ =>
          (rework .trying (fun _ => [.forget (solver.symbols.draw .slack).1])
            fun _ => by rfl).before fun _ => .bind (.update fun _ => by rfl) fun _ => .pure _

/-- A row is solved for a symbol. -/
def seat (form : LinearForm α) (subject : Symbol) : Journal (do
    Action.rework fun tableau => tableau.pivot form subject Symbol.null
    return .ok () : Action α (Except Refusal Unit)) :=
  (rework .seating (fun _ => Change.pivot form subject Symbol.null) fun _ => by rfl).before
    fun _ => .pure _

/-- A row finds its place at once, or with the help of an artificial symbol. -/
def place (form : LinearForm α) (markers : Markers) : Journal (Action.place form markers) where
  turns session :=
    match form.subject? [markers.marker, markers.other] with
    | some subject => (seat form subject).turns session
    | none =>
        if form.hasOnlyDummies then
          if Scalar.negligible form.constant then (seat form markers.marker).turns session else []
        else (placeArtificially form).turns session
  linked session := by
    unfold Action.place
    cases form.subject? [markers.marker, markers.other] with
    | some subject => exact (seat form subject).linked session
    | none =>
        dsimp only
        split
        · split
          · exact (seat form markers.marker).linked session
          · exact .refl _
        · refine ((placeArtificially form).before fun placed => ?_).linked session
          cases placed <;> exact .pure _

/-- A marker is taken out. -/
def dropMarker (marker : Symbol) :
    Journal (Action.rework fun tableau : Tableau α => tableau.dropMarker marker) :=
  rework .dropping (fun tableau => tableau.markerChanges marker)
    fun tableau => tableau.runAll_markerChanges marker

/-- What is above a mark is cut off, and both phases follow. -/
def cutOff (mark : Nat) : Journal (do
    Action.rework fun tableau => tableau.truncate mark
    Action.optimize
    Action.update fun solver =>
      { solver with symbols := solver.symbols.restore mark } : Action α Unit) :=
  (rework .cutting (fun _ => [.truncate mark]) fun _ => by rfl).bind fun _ =>
    optimize.before fun _ => .update fun _ => by rfl

/-- What a constraint has brought in is stripped, and it is taken out and cut off if its row was
tried and found no place. -/
def rollBack (key : Symbol) (reason : Refusal) (mark : Nat) :
    Journal (Action.rollBack key reason mark : Action α Unit) :=
  (strip key).bind fun marker? =>
    branch
      (match marker? with
      | some marker => (dropMarker marker).bind fun _ => cutOff mark
      | none => cutOff mark)
      (silent (.update fun _ => by rfl))

/-- A constraint is prepared and its row placed, and both phases follow, or it is rolled back. -/
def activate (key : Symbol) : Journal (Action.activate key : Action α Unit) :=
  reading fun solver =>
    match solver.constraints.get? key with
    | none => silent (.refuse _)
    | some constraint => (prepare key constraint).bind fun (form, markers) =>
        (place form markers).bind fun placed =>
          match placed with
          | .ok () => settle
          | .error reason => (rollBack key reason solver.symbols.last).before fun _ => .refuse _

/-- A constraint that takes part is stripped, its marker is taken out, and both phases follow. -/
def deactivate (key : Symbol) : Journal (Action.deactivate key : Action α Unit) :=
  (strip key).bind fun marker? =>
    match marker? with
    | none => silent (.pure _)
    | some marker => (dropMarker marker).bind fun _ => settle

section Joining

variable {claim : Tableau α → List (Turn α) → Tableau α → Prop} [Turn.Composes claim]
  {solver : Solver α} {key : Symbol} {constraint : Constraint α}

theorem ensures_freeArtificial {artificial : Symbol}
    (frees : claim solver.tableau
      (Turn.series .trying solver.tableau (solver.tableau.freeingChanges artificial))
      (Change.runAll (solver.tableau.freeingChanges artificial) solver.tableau)) :
    (freeArtificial artificial).Ensures claim solver := by
  intro steps
  have linked := (freeArtificial artificial).linked ⟨solver, steps⟩
  exact Turn.Composes.then_alike frees (Turn.Linked.alike_runAll linked (.refl _))

/-- A row is solved for a symbol that it is written in, or for its marker, or it is tried at an
artificial symbol. -/
theorem ensures_place {form : LinearForm α} {markers : Markers}
    (seats : ∀ subject, form.subject? [markers.marker, markers.other] = some subject →
      (seat form subject).Ensures claim solver)
    (contradicts : form.subject? [markers.marker, markers.other] = none →
      (seat form markers.marker).Ensures claim solver)
    (tries : form.subject? [markers.marker, markers.other] = none →
      form.hasOnlyDummies = false → (placeArtificially form).Ensures claim solver) :
    (place form markers).Ensures claim solver := by
  intro steps
  simp only [place, Action.place]
  cases chosen : form.subject? [markers.marker, markers.other] with
  | some subject => exact seats subject chosen steps
  | none =>
      dsimp only
      split
      · split
        · exact contradicts chosen steps
        · exact Turn.Composes.still (.refl _)
      · rename_i varied
        have answers : ∀ placed : Bool, Still (if placed = true then Pure.pure (.ok ())
            else Pure.pure (.error .unbound) : Action α (Except Refusal Unit)) := by
          intro placed
          cases placed <;> exact .pure _
        have ensures : ((placeArtificially form).before answers).Ensures claim solver :=
          (tries chosen (by simpa using varied)).before
        exact ensures steps

/-- The price of a constraint that takes part is refunded. -/
theorem ensures_strip
    (refunds : ∀ constraint, solver.constraints.get? key = some constraint →
      constraint.isActive = true → claim solver.tableau (Turn.series .pricing solver.tableau
        [.charge constraint.markers.errors (-constraint.strength.weight), .settle])
        (solver.tableau.charge constraint.markers.errors
          (-constraint.strength.weight)).settleObjective) :
    (strip key).Ensures claim solver := by
  apply Ensures.reading
  cases found : solver.constraints.get? key with
  | none => exact Ensures.silent
  | some constraint =>
      exact Ensures.branch
        (fun active => Ensures.before (Ensures.update (refunds constraint found active)))
        fun _ => Ensures.silent

/-- A constraint that takes part is stripped, and its marker is taken out of what is left. -/
theorem ensures_deactivate (strips : (strip key).Ensures claim solver)
    (drops : ∀ constraint, solver.constraints.get? key = some constraint →
      constraint.isActive = true →
        ((dropMarker constraint.markers.marker).bind fun _ => settle).Ensures claim
          (solver.stripped key constraint)) :
    (deactivate key).Ensures claim solver := by
  by_cases idle : ∀ constraint, solver.constraints.get? key = some constraint →
      constraint.isActive = false
  · have finds : (Action.strip key).Meets solver
        (fun result after => result = none ∧ after = solver) (fun _ _ => False) fun _ => False :=
      meets_strip_idle idle
    apply strips.bind finds
    rintro _ _ ⟨rfl, rfl⟩
    exact Ensures.silent
  · push Not at idle
    obtain ⟨constraint, found, active⟩ := idle
    rw [ne_eq, Bool.not_eq_false] at active
    have finds : (Action.strip key).Meets solver (fun result after =>
        result = some constraint.markers.marker ∧ after = solver.stripped key constraint)
          (fun _ _ => False) fun _ => False :=
      meets_strip found active
    apply strips.bind finds
    rintro _ _ ⟨rfl, rfl⟩
    exact drops constraint found active

/-- What has been stripped of a constraint is taken out, if its row has found no place. -/
theorem ensures_rollBack {reason : Refusal} {mark : Nat}
    (found : solver.constraints.get? key = some constraint) (active : constraint.isActive = true)
    (strips : (strip key).Ensures claim solver)
    (drops : reason = .unbound → ((dropMarker constraint.markers.marker).bind fun _ =>
      cutOff mark).Ensures claim (solver.stripped key constraint)) :
    (rollBack key reason mark).Ensures claim solver := by
  have finds : (Action.strip key).Meets solver (fun result after =>
      result = some constraint.markers.marker ∧ after = solver.stripped key constraint)
        (fun _ _ => False) fun _ => False :=
    meets_strip found active
  apply strips.bind finds
  rintro _ _ ⟨rfl, rfl⟩
  exact Ensures.branch drops fun _ => Ensures.silent

/-- A constraint is prepared and its row placed, and then both phases follow, or what has been
drawn is taken back. -/
theorem ensures_activate (found : solver.constraints.get? key = some constraint)
    (charges : claim solver.tableau
      [⟨.pricing, .chargeFresh (solver.marking constraint).markers.errors
        constraint.strength.weight, solver.tableau⟩]
      (solver.tableau.chargeFresh (solver.marking constraint).markers.errors
        constraint.strength.weight))
    (places : (place (solver.tableau.rowFor constraint.expression
      (solver.marking constraint).markers) (solver.marking constraint).markers).Ensures claim
        (solver.prepared key constraint))
    {seated : Except Refusal Unit → Solver α → Prop} {refused : Refusal → Solver α → Prop}
    {paused : Solver α → Prop}
    (seats : (Action.place (solver.tableau.rowFor constraint.expression
      (solver.marking constraint).markers) (solver.marking constraint).markers).Meets
        (solver.prepared key constraint) seated refused paused)
    (settles : ∀ after, seated (.ok ()) after → settle.Ensures claim after)
    (rolls : ∀ reason after, seated (.error reason) after →
      (rollBack key reason solver.symbols.last).Ensures claim after) :
    (activate key).Ensures claim solver := by
  have prepares : (prepare key constraint).Ensures claim solver :=
    Ensures.reading (Ensures.before (Ensures.update charges))
  have draws : (Action.prepare key constraint).Meets solver (fun result after =>
      result = (solver.tableau.rowFor constraint.expression (solver.marking constraint).markers,
        (solver.marking constraint).markers) ∧ after = solver.prepared key constraint)
        (fun _ _ => False) fun _ => False :=
    meets_prepare solver key constraint
  apply Ensures.reading
  rw [found]
  apply prepares.bind draws
  rintro _ _ ⟨rfl, rfl⟩
  apply places.bind seats
  intro placed after seating
  cases placed with
  | ok _ => exact settles after seating
  | error reason => exact (rolls reason after seating).before

end Joining

/-! ## What callers ask for -/

/-- A constraint is taken out and erased, and so are the edits of variables that go with it. -/
def removeWithin : (depth : Nat) → (key : Symbol) →
    Journal (Action.removeWithin depth key : Action α Unit)
  | 0, _ => silent (.pure _)
  | depth + 1, key => (deactivate key).bind fun _ => reading fun solver =>
      match solver.constraints.take? key with
      | none => silent (.pure _)
      | some (constraint, _) => after (.update fun _ => by rfl) fun _ =>
          forM (fun term => after (still_dropReference term.1) fun edit? =>
            match edit? with
            | none => silent (.pure _)
            | some edit => removeWithin depth edit) constraint.expression.terms

/-- A removal spreads no further than there are constraints. -/
def removeConstraint (key : Symbol) : Journal (Action.removeConstraint key : Action α Unit) :=
  reading fun solver => removeWithin solver.constraintCount key

/-- The last reference to a variable takes the constraint of its edit along. -/
def releaseVariable (symbol : Symbol) :
    Journal (Action.releaseVariable symbol : Action α Unit) :=
  after (still_dropReference symbol) fun edit? =>
    match edit? with
    | none => silent (.pure _)
    | some edit => removeConstraint edit

/-- Only a variable that went out of an expression may take its constraint along. -/
def trackTerm (symbol : Symbol) (before after : LinearForm α) :
    Journal (Action.trackTerm symbol before after) where
  turns session :=
    if before.mentions symbol && !after.mentions symbol then (releaseVariable symbol).turns session
    else []
  linked session := by
    unfold Action.trackTerm
    cases before.mentions symbol <;> cases after.mentions symbol
    · exact .refl _
    · exact .refl _
    · exact (releaseVariable symbol).linked session
    · exact .refl _

/-- A handle that is given up releases its variable. -/
def giveUpVariable (handle : VariableHandle) :
    Journal (Action.giveUpVariable handle : Action α Unit) :=
  reading fun _ => branch (releaseVariable handle.symbol) (silent (.pure _))

/-- The turns are those of a variable that goes out of the expression. -/
def addTerm (handle : ConstraintHandle) (inside : VariableHandle) (coefficient : α) :
    Journal (Action.addTerm handle inside coefficient) :=
  reading fun _ => after (.demand _) fun _ => reading fun _ => after (.demand _) fun constraint =>
    after (still_replaceConstraint handle _) fun _ =>
      trackTerm inside.symbol constraint.expression
        (constraint.addTerm inside.symbol coefficient).expression

/-- Each variable of the merged expression may go out. -/
def mergeConstraint (handle source : ConstraintHandle) (factor : α) :
    Journal (Action.mergeConstraint handle source factor) :=
  reading fun _ => after (.demand _) fun added =>
    reading fun _ => after (.demand _) fun constraint =>
      after (still_replaceConstraint handle _) fun _ =>
        forM (fun term => trackTerm term.1 constraint.expression
          (constraint.addForm added.expression factor).expression) added.expression.terms

/-- A copy is a new constraint that the source is merged into. -/
def copyConstraint (source : ConstraintHandle) (strength : Strength α) :
    Journal (Action.copyConstraint source strength) :=
  reading fun _ => after (.demand _) fun _ => after (still_createConstraint _) fun handle =>
    (mergeConstraint handle source 1).before fun _ =>
      .bind (.update fun _ => by rfl) fun _ => .pure _

/-- A constraint that takes no part yet is activated. -/
def addConstraint (handle : ConstraintHandle) :
    Journal (Action.addConstraint handle : Action α Unit) :=
  reading fun _ => after (.demand _) fun _ => branch (silent (.refuse _)) (activate handle.key)

/-- A constraint of the solver is deactivated. -/
def withdrawConstraint (handle : ConstraintHandle) :
    Journal (Action.withdrawConstraint handle : Action α Unit) :=
  reading fun solver =>
    match solver.findConstraint handle with
    | .ok _ => deactivate handle.key
    | .error _ => silent (.pure _)

/-- A constraint is deactivated, and its variables are released. -/
def eraseConstraint (handle : ConstraintHandle) :
    Journal (Action.eraseConstraint handle : Action α Unit) :=
  reading fun solver =>
    match solver.findConstraint handle with
    | .error _ => silent (.pure _)
    | .ok _ => (deactivate handle.key).bind fun _ => reading fun solver =>
        match solver.constraints.get? handle.key with
        | none => silent (.pure _)
        | some constraint => after (still_replaceConstraint handle _) fun _ =>
            forM (fun term => releaseVariable term.1) constraint.expression.terms

/-- A constraint of the solver is removed. -/
def discardConstraint (handle : ConstraintHandle) :
    Journal (Action.discardConstraint handle : Action α Unit) :=
  reading fun solver =>
    match solver.findConstraint handle with
    | .ok _ => removeConstraint handle.key
    | .error _ => silent (.pure _)

/-- The prices of a constraint change in place. -/
def reprice (key : Symbol) (constraint : Constraint α) (strength : Strength α) : Journal (do
    Action.rework fun tableau => tableau.charge constraint.markers.errors
      (strength.weight - constraint.strength.weight)
    Action.optimize
    refreshIfAutomatic
    Action.update fun solver =>
      { solver with constraints := solver.constraints.modify key fun state =>
          { state with strength } } : Action α Unit) :=
  (rework .pricing (fun _ => [.charge constraint.markers.errors
    (strength.weight - constraint.strength.weight)]) fun _ => by rfl).bind fun _ =>
      optimize.before fun _ => .bind still_refreshIfAutomatic fun _ => .update fun _ => by rfl

/-- A constraint that takes part is moved between the required and the soft ones, or repriced. -/
def changeStrength (key : Symbol) (strength : Strength α) :
    Journal (Action.changeStrength key strength) :=
  reading fun solver =>
    match solver.constraints.get? key with
    | none => silent (.refuse _)
    | some constraint =>
        branch (silent (.pure _)) <|
          branch
            (branch
              ((deactivate key).bind fun _ => after (.update fun _ => by rfl) fun _ => activate key)
              (after (.update fun _ => by rfl) fun _ => activate key))
            (branch (reprice key constraint strength) (silent (.update fun _ => by rfl)))

/-- A constraint of the solver changes its strength. -/
def setStrength (handle : ConstraintHandle) (strength : Strength α) :
    Journal (Action.setStrength handle strength) :=
  reading fun _ => after (.demand _) fun _ => changeStrength handle.key strength.orRequired

/-- The hidden constraint of an edit is written and added, or removed again if it is refused. -/
def beginEdit (handle : VariableHandle) (strength : Strength α) :
    Journal (Action.beginEdit handle strength) :=
  reading fun _ => after (.demand _) fun found =>
    match found.edit with
    | some key => changeStrength key strength.orRequired.cappedAtStrong
    | none => after (still_createConstraint _) fun hidden =>
        after (still_setRelation hidden .equal) fun _ => (addTerm hidden handle 1).bind fun _ =>
          after (still_addConstant hidden _) fun _ =>
            (addConstraint hidden).attempt.bind fun added =>
              match added with
              | .error _ => (removeConstraint hidden.key).before fun _ => .refuse _
              | .ok () => silent (.update fun _ => by rfl)

/-- The target of an edit moves, and the dual phase follows. -/
def moveTarget (symbol key : Symbol) (previous target : α) :
    Journal (Action.moveTarget symbol key previous target) :=
  after (.update fun _ => by rfl) fun _ => reading fun solver =>
    match solver.constraints.get? key with
    | none => repair.before fun _ => still_refreshIfAutomatic
    | some constraint =>
        (rework .shifting (fun _ => [.shift constraint.markers (target - previous)])
          fun _ => by rfl).bind fun _ => repair.before fun _ => still_refreshIfAutomatic

/-- The target moves if there is an edit. -/
def moveIfBegun (symbol : Symbol) (target : α) (begun : Except Refusal Unit) :
    Journal (Action.moveIfBegun symbol target begun) :=
  reading fun solver =>
    match begun, solver.unknowns.get? symbol with
    | .ok (), some ⟨_, _, some key, previous, _⟩ => moveTarget symbol key previous target
    | .ok (), some ⟨_, _, none, _, _⟩ => silent (.pure _)
    | .ok (), none => silent (.pure _)
    | .error _, _ => silent (.pure _)

/-- An edit is begun if there is none, and its target moves. -/
def suggest (handle : VariableHandle) (target : α) : Journal (Action.suggest handle target) :=
  reading fun solver =>
    match solver.findVariable handle with
    | .error _ => silent (.pure _)
    | .ok _ =>
        branch (after (.pure _) fun begun => moveIfBegun handle.symbol target begun)
          ((beginEdit handle Strength.medium).attempt.bind fun begun =>
            moveIfBegun handle.symbol target begun)

/-- The hidden constraint of an edit is removed. -/
def endEdit (handle : VariableHandle) : Journal (Action.endEdit handle : Action α Unit) :=
  reading fun solver =>
    match solver.findVariable handle with
    | .error _ => silent (.pure _)
    | .ok ⟨_, _, none, _, _⟩ => silent (.pure _)
    | .ok ⟨_, _, some key, _, _⟩ => after (.update fun _ => by rfl) fun _ => removeConstraint key

/-- All rows and prices go at once. -/
def emptyTableau : Journal (Action.emptyTableau : Action α Unit) :=
  update .clearing (fun _ => [.clear]) fun _ => .refl _

/-- All edits are removed, and the tableau may be emptied. -/
def reset (dropConstraints : Bool) : Journal (Action.reset dropConstraints : Action α Unit) :=
  reading fun _ =>
    branch
      (after still_refreshAll fun _ => after still_forgetEdits fun edits =>
        (forM removeConstraint edits).bind fun _ => after still_refreshAll fun _ =>
          branch emptyTableau (silent (.pure _)))
      (after still_forgetEdits fun edits =>
        (forM removeConstraint edits).bind fun _ => after still_refreshAll fun _ =>
          branch emptyTableau (silent (.pure _)))

/-- An action without a result of its own. -/
def finish {action : Action α Unit} (journal : Journal action) :
    Journal (Command.action.finish action) :=
  journal.before fun _ => .pure _

/-- The journal of what a caller asks for. -/
def command : (request : Command α) → Journal request.action
  | .createVariable => map (silent (.bind .read fun _ => .bind (.update fun _ => by rfl) fun _ =>
      .pure _))
  | .shareVariable _ => finish (silent (.bind .read fun _ => .bind (.demand _) fun _ =>
      .update fun _ => by rfl))
  | .giveUpVariable handle => finish (giveUpVariable handle)
  | .createConstraint strength => map (silent (still_createConstraint strength))
  | .copyConstraint source strength => map (copyConstraint source strength)
  | .mergeConstraint handle source factor => finish (mergeConstraint handle source factor)
  | .addTerm handle inside coefficient => finish (addTerm handle inside coefficient)
  | .addConstant handle constant => finish (silent (still_addConstant handle constant))
  | .setRelation handle relation => finish (silent (still_setRelation handle relation))
  | .setStrength handle strength => finish (setStrength handle strength)
  | .addConstraint handle => finish (addConstraint handle)
  | .withdrawConstraint handle => finish (withdrawConstraint handle)
  | .eraseConstraint handle => finish (eraseConstraint handle)
  | .discardConstraint handle => finish (discardConstraint handle)
  | .beginEdit handle strength => finish (beginEdit handle strength)
  | .suggest handle target => finish (suggest handle target)
  | .endEdit handle => finish (endEdit handle)
  | .refresh => finish (silent still_refreshAll)
  | .reset dropConstraints => finish (reset dropConstraints)
  | .setAutoUpdate _ => finish (silent (.update fun _ => rfl))

end Journal

end Action

namespace Solver

variable [Scalar α]

/-- The turns that are taken while a command is executed with an allotment of steps. -/
def turns (solver : Solver α) (command : Command α) (steps : Nat) : List (Turn α) :=
  (Action.Journal.command command).turns ⟨solver, steps⟩

/-- Nothing but these turns happens to rows and objective. -/
theorem linked_turns (solver : Solver α) (command : Command α) (steps : Nat) :
    Turn.Linked solver.tableau (solver.turns command steps)
      (solver.perform command steps).2.tableau := by
  rw [← Action.left_perform]
  exact (Action.Journal.command command).linked ⟨solver, steps⟩

/-- A claim that a journal ensures is true of the execution of the command, up to its end or to
where it pauses. -/
theorem claim_turns {claim : Tableau α → List (Turn α) → Tableau α → Prop} {solver : Solver α}
    {command : Command α} (ensures : (Action.Journal.command command).Ensures claim solver)
    (steps : Nat) : claim solver.tableau (solver.turns command steps)
      (solver.perform command steps).2.tableau := by
  rw [← Action.left_perform]
  exact ensures steps

/-- The equations that are solved while a command is executed with an allotment of steps. -/
def divisions (solver : Solver α) (command : Command α) (steps : Nat) : List (Division α) :=
  Turn.divisions (solver.turns command steps)

/-- Nothing but turns of some class happens to rows and objective while a command is executed. -/
structure Proceeds (sound : Turn α → Prop) (solver : Solver α) (command : Command α)
    (steps : Nat) : Prop where
  linked : Turn.Linked solver.tableau (solver.turns command steps)
    (solver.perform command steps).2.tableau
  sound : ∀ turn ∈ solver.turns command steps, sound turn

theorem proceeds {sound : Turn α → Prop} {solver : Solver α} {command : Command α}
    (ensures : (Action.Journal.command command).Ensures (Turn.All sound) solver) (steps : Nat) :
    solver.Proceeds sound command steps :=
  ⟨solver.linked_turns command steps, claim_turns ensures steps⟩

end Solver

end SoftSimplex
