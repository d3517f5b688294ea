import SoftSimplex.Proofs.Tableau.Turns

/-!
# Basic and free symbols

A tableau is separate if no symbol that has a row occurs in a row or in the objective, its own row
included. A turn is clean if it starts and ends with a separate tableau, and gives a row only to a
symbol without one. In a tableau that is arranged within some range of numbers, the turns of a pivot
are clean, those in the middle of it as well, and so are all turns of both phases.
-/

namespace SoftSimplex

variable {α : Type} {kinds : Nat → Symbol.Kind} {inside : Nat → Prop}

namespace Tableau

variable {tableau : Tableau α}

/-- No symbol that has a row occurs in a row or in the objective. -/
structure Separate (tableau : Tableau α) : Prop where
  rows : ∀ row ∈ tableau.equations, ∀ other ∈ tableau.equations,
    other.2.mentions row.1 = false
  objective : ∀ row ∈ tableau.equations, tableau.objective.mentions row.1 = false

/-- A form is written in free symbols if it mentions none that has a row. -/
theorem over_free_iff (tableau : Tableau α) (form : LinearForm α) :
    (form.Over fun symbol => tableau.form? symbol = none) ↔
      ∀ row ∈ tableau.equations, form.mentions row.1 = false := by
  constructor
  · intro spanned row member
    exact (form.mentions_eq_false_iff row.1).mpr fun term mentioned same =>
      (tableau.form?_eq_none_iff term.1).mp (spanned term mentioned) row member same.symm
  · intro unmentioned term mentioned
    exact (tableau.form?_eq_none_iff term.1).mpr fun row member same =>
      (form.mentions_eq_false_iff row.1).mp (unmentioned row member) term mentioned same.symm

theorem separate_iff (tableau : Tableau α) : tableau.Separate ↔
    (∀ row ∈ tableau.equations, row.2.Over fun symbol => tableau.form? symbol = none) ∧
      tableau.objective.Over fun symbol => tableau.form? symbol = none := by
  simp only [over_free_iff]
  constructor
  · exact fun separate => ⟨fun row member basic there => separate.rows basic there row member,
      separate.objective⟩
  · exact fun ⟨rows, objective⟩ => ⟨fun basic there row member => rows row member basic there,
      objective⟩

theorem Arranged.separate (arranged : tableau.Arranged kinds inside) : tableau.Separate :=
  tableau.separate_iff.mpr
    ⟨fun row member => (arranged.written row member).mono fun _ free => free.1.2,
      arranged.objective.mono fun _ free => free.1.2⟩

theorem Separate.alike {other : Tableau α} (separate : tableau.Separate)
    (alike : tableau.Alike other) : other.Separate := by
  constructor
  · rw [alike.equations]
    exact separate.rows
  · rw [alike.equations, alike.objective]
    exact separate.objective

theorem Separate.discard (separate : tableau.Separate) (symbol : Symbol) :
    (tableau.discard symbol).Separate := by
  have kept : ∀ row ∈ (tableau.discard symbol).equations, row ∈ tableau.equations :=
    fun row member => ((tableau.mem_equations_discard_iff symbol row).mp member).1
  constructor
  · exact fun row member other there => separate.rows row (kept row member) other (kept other there)
  · rw [objective_discard]
    exact fun row member => separate.objective row (kept row member)

end Tableau

variable [Scalar α]

/-- Exchanging a basic symbol for a free one keeps basic and free symbols apart. -/
theorem Tableau.Separate.exchange {tableau : Tableau α} (separate : tableau.Separate)
    {form : LinearForm α} {entering leaving : Symbol}
    (member : (leaving, form) ∈ tableau.equations) (free : tableau.form? entering = none) :
    ((tableau.discard leaving).pivot form entering leaving).Separate := by
  obtain ⟨rows, objective⟩ := tableau.separate_iff.mp separate
  have unbound : ∀ other : LinearForm α, (other.Over fun symbol => tableau.form? symbol = none) →
      other.Over fun symbol => True ∧ tableau.form? symbol = none :=
    fun _ spanned => spanned.mono fun _ => And.intro trivial
  have solved := over_isolate_exchange (unbound _ (rows _ member)) (form?_of_mem member) trivial free
  have replaced : ∀ other : LinearForm α, (other.Over fun symbol => tableau.form? symbol = none) →
      (other.substitute entering (form.isolate entering leaving)).Over fun symbol =>
        ((tableau.discard leaving).pivot form entering leaving).form? symbol = none :=
    fun other spanned => (over_substitute_exchange (unbound _ (rows _ member))
      (form?_of_mem member) trivial free (unbound other spanned)).mono fun _ => And.right
  have freed : (tableau.discard leaving).form? entering = none := free_discard free
  refine (separate_iff _).mpr ⟨fun row inside => ?_, ?_⟩
  · rcases mem_equations_pivot freed inside with rfl | ⟨before, earlier, rfl⟩
    · exact solved.mono fun _ => And.right
    · exact replaced _ (rows before ((mem_equations_discard_iff _ _ _).mp earlier).1)
  · rw [objective_pivot, objective_discard]
    exact replaced _ objective

namespace Turn

variable {turn : Turn α} {occasion : Occasion}

/-- The tableau is separate before and after, and no row is put over another one. -/
structure Clean (turn : Turn α) : Prop where
  before : turn.before.Separate
  after : turn.after.Separate
  vacant : ∀ symbol form, turn.change = .put symbol form → turn.before.form? symbol = none

end Turn

namespace Tableau

variable {tableau other : Tableau α} {form : LinearForm α} {entering leaving symbol : Symbol}
  {occasion : Occasion}

omit [Scalar α] in
/-- The range of an arranged tableau holds all symbols with a row. -/
theorem Arranged.form?_eq_none (arranged : tableau.Arranged kinds inside)
    (outside : ¬ inside symbol.id) : tableau.form? symbol = none :=
  (tableau.form?_eq_none_iff symbol).mpr fun row member same =>
    outside (same ▸ (arranged.basic row member).2)

/-- A plain change gives nobody a row. -/
theorem Separate.clean_plain (separate : tableau.Separate) {change : Change α}
    (plain : change.Plain) (separate' : (change.run tableau).Separate) (occasion : Occasion) :
    Turn.Clean ⟨occasion, change, tableau⟩ := by
  refine ⟨separate, separate', ?_⟩
  rintro symbol form ⟨⟩
  exact plain.elim

theorem Separate.clean_take (separate : tableau.Separate) (occasion : Occasion)
    (symbol : Symbol) : Turn.Clean ⟨occasion, .take symbol, tableau⟩ :=
  ⟨separate, separate.discard symbol, nofun⟩

/-- A symbol out of the range is given a row. -/
theorem Arranged.clean_put
    (arranged : tableau.Arranged kinds fun id => inside id ∧ id ≠ symbol.id)
    (proper : symbol.Proper kinds) (within : inside symbol.id)
    (spanned : form.Over (tableau.FreeWithin kinds fun id => inside id ∧ id ≠ symbol.id)) :
    Turn.Clean ⟨occasion, .put symbol form, tableau⟩ := by
  refine ⟨arranged.separate, (arranged.put proper within spanned).separate, ?_⟩
  rintro _ _ ⟨⟩
  exact arranged.form?_eq_none fun both => both.2 rfl

namespace Arranged

/-- Making a free symbol basic takes clean turns. -/
theorem clean_pivot (arranged : tableau.Arranged kinds inside)
    (free : tableau.FreeWithin kinds inside entering)
    (spanned : form.Over (tableau.FreeWithin kinds inside))
    (freed : leaving.isNull = false →
      tableau.FreeWithin kinds inside leaving ∧ leaving.id ≠ entering.id) :
    ∀ turn ∈ Turn.series occasion tableau (Change.pivot form entering leaving), turn.Clean := by
  have solved := over_isolate spanned freed
  have replaced := arranged.eliminate free.1.2 solved
  refine List.forall_mem_cons.mpr ⟨⟨arranged.separate, replaced.separate, nofun⟩,
    List.forall_mem_singleton.mpr (replaced.clean_put free.1.1 free.2 ?_)⟩
  exact solved.mono fun _ => (freeWithin_eliminate_iff _).mpr

/-- Exchanging a basic symbol for a free one takes clean turns. -/
theorem clean_exchange (arranged : tableau.Arranged kinds inside)
    (member : (leaving, form) ∈ tableau.equations)
    (free : tableau.FreeWithin kinds inside entering) :
    ∀ turn ∈ Turn.series occasion tableau (Change.exchange form entering leaving),
      turn.Clean := by
  refine List.forall_mem_cons.mpr ⟨arranged.separate.clean_take occasion leaving, ?_⟩
  apply ((arranged.discard (form?_of_mem member)).mono fun _ => And.left).clean_pivot
  · exact freeWithin_discard free leaving
  · exact (arranged.written _ member).mono fun _ free => freeWithin_discard free leaving
  · exact arranged.freed_leaving member free

/-- Putting a row back takes clean turns. -/
theorem clean_put_back (arranged : tableau.Arranged kinds inside)
    (member : (leaving, form) ∈ tableau.equations) :
    ∀ turn ∈ Turn.series occasion tableau [.take leaving, .put leaving form], turn.Clean := by
  obtain ⟨proper, within⟩ := arranged.basic _ member
  refine List.forall_mem_cons.mpr ⟨arranged.separate.clean_take occasion leaving,
    List.forall_mem_singleton.mpr ((arranged.discard (form?_of_mem member)).clean_put proper
      within ?_)⟩
  refine (arranged.written _ member).mono fun free is_free => ?_
  have apart := is_free.1.id_ne (form?_of_mem member)
  exact freeWithin_discard ⟨is_free.1, is_free.2, apart⟩ leaving

end Arranged

theorem Descent.Ordered.clean_turns {descent following : Descent α}
    (ordered : descent.Ordered kinds inside) (moves : descent.step = .next following) :
    Turn.All Turn.Clean descent.tableau descent.turns following.tableau := by
  apply Descent.claim_turns moves
  intro division chosen left found
  obtain ⟨amount, in_goal, _⟩ := LinearForm.of_entering?_eq_some chosen
  obtain ⟨row, _, member, _⟩ := exists_row_of_leaving? left
  obtain rfl : row = division.form := form_eq_of_form? member found
  exact ordered.tableau.clean_exchange member (ordered.over_goal _ in_goal)

/-- The primal phase takes clean turns. -/
theorem Ordered.clean_descendTurns (ordered : tableau.Ordered kinds inside)
    {goal? : Option (LinearForm α)}
    (written : ∀ goal, goal? = some goal → goal.Over (tableau.FreeWithin kinds inside))
    (steps : Nat) : Turn.All Turn.Clean tableau (tableau.descendTurns steps goal?)
      (tableau.descend steps goal?).state.tableau := by
  have start : Descent.Ordered kinds inside ⟨tableau, goal?⟩ := ⟨ordered, written⟩
  have last : Descent.Ordered kinds inside (tableau.descend steps goal?).state :=
    iterate_invariant (fun _ _ now moves => now.step moves) steps _ start
  have separate := last.tableau.separate
  refine Turn.Composes.append (Turn.along_composes Descent.tableau
    (fun _ _ now moves => ⟨now.step moves, now.clean_turns moves⟩) steps start) ?_
  exact Descent.claim_lastTurns fun _ _ =>
    List.forall_mem_singleton.mpr ⟨separate, separate, nofun⟩

theorem Ordered.clean_repairStepTurns (ordered : tableau.Ordered kinds inside)
    (moves : tableau.repairStep = .next other) :
    Turn.All Turn.Clean tableau tableau.repairStepTurns other := by
  apply claim_repairStepTurns moves
  · intro leaving waiting form entering queue found chosen
    have calm := ordered.calmed queue
    have member := ordered.mem_calmed queue found
    obtain ⟨coefficient, mentioned⟩ := exists_term_of_lifting? chosen
    exact calm.clean_exchange member (calm.written _ member _ mentioned)
  · intro leaving waiting form queue found
    exact (ordered.calmed queue).clean_put_back (ordered.mem_calmed queue found)

/-- The dual phase takes clean turns. -/
theorem Ordered.clean_repairTurns (ordered : tableau.Ordered kinds inside) (steps : Nat) :
    Turn.All Turn.Clean tableau (tableau.repairTurns steps) (tableau.repair steps).state :=
  Turn.along_composes id
    (fun _ _ now moves => ⟨Ordered.repairStep now moves, now.clean_repairStepTurns moves⟩) steps
    ordered

/-- Making a basic symbol free takes clean turns. -/
theorem Ordered.clean_freeing (ordered : tableau.Ordered kinds inside)
    (proper : symbol.Proper kinds) :
    ∀ turn ∈ Turn.series occasion tableau (tableau.freeingChanges symbol), turn.Clean := by
  have taken := List.forall_mem_singleton.mpr (ordered.separate.clean_take occasion symbol)
  unfold freeingChanges
  cases found : tableau.form? symbol with
  | none => exact fun _ member => absurd member List.not_mem_nil
  | some remaining =>
      dsimp only
      split
      · exact taken
      · cases chosen : remaining.restricted? with
        | none => exact taken
        | some entering =>
            obtain ⟨_, coefficient, mentioned⟩ := LinearForm.of_restricted?_eq_some chosen
            have member := ordered.mem_equations proper found
            exact ordered.clean_exchange member (ordered.written _ member _ mentioned)

/-- Taking a marker out takes clean turns. -/
theorem Ordered.clean_marker (ordered : tableau.Ordered kinds inside)
    (proper : symbol.id ≠ 0 → symbol.Proper kinds) :
    ∀ turn ∈ Turn.series occasion tableau (tableau.markerChanges symbol), turn.Clean := by
  have dropped := (ordered.dropMarker symbol proper).separate
  rw [← runAll_markerChanges] at dropped
  revert dropped
  unfold markerChanges
  cases tableau.form? symbol with
  | some form =>
      exact fun _ => List.forall_mem_singleton.mpr (ordered.separate.clean_take occasion symbol)
  | none =>
      cases tableau.markerDivision? symbol with
      | none => exact fun _ _ member => absurd member List.not_mem_nil
      | some division =>
          intro dropped
          exact List.forall_mem_cons.mpr ⟨ordered.separate.clean_take occasion _,
            List.forall_mem_singleton.mpr ⟨ordered.separate.discard _, dropped, nofun⟩⟩

end Tableau

end SoftSimplex
