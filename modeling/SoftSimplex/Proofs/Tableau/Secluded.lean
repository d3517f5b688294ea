import SoftSimplex.Proofs.Tableau.Trial
import SoftSimplex.Proofs.Tableau.Turns

/-!
# External symbols aside

External symbols are secluded if only rows of external symbols mention them. A turn is guarded if it
starts and ends with such a tableau, if a phase lets no other symbol in than a restricted one, and
if rows of external symbols go only when a marker is taken out or everything is emptied. In a
regular tableau external symbols are secluded. The turns of both phases are guarded, since no form
that is solved in them mentions an external symbol, and so are those that take a marker out, since
what nobody pays for is mentioned by no other form when the row of an external symbol goes.
-/

namespace SoftSimplex

variable {kinds : Nat → Symbol.Kind} {empties : Prop} {occasion : Occasion}

/-- External symbols are mentioned by rows of external symbols only. -/
structure Tableau.Secluded {α : Type} (tableau : Tableau α) : Prop where
  rows : ∀ row ∈ tableau.equations, row.1.isExternal = false →
    row.2.Over fun symbol => symbol.isExternal = false
  objective : tableau.objective.Over fun symbol => symbol.isExternal = false

/-- One of the two phases is at work. -/
def Occasion.isPhase : Occasion → Bool
  | lowering | repairing => true
  | _ => false

/-- The symbol that is let in, or would have been. -/
def Change.entering? {α : Type} : Change α → Option Symbol
  | replace division => some division.entering
  | stall symbol => some symbol
  | _ => none

/-- External symbols are secluded before and after, the phases let restricted symbols in, and a row
of an external symbol goes only with a marker, or when everything is emptied. -/
structure Turn.Guarded {α : Type} [Scalar α] (empties : Prop) (turn : Turn α) : Prop where
  before : turn.before.Secluded
  after : turn.after.Secluded
  entering : turn.occasion.isPhase = true →
    ∀ symbol ∈ turn.change.entering?, symbol.isRestricted = true
  leaving : ∀ row ∈ turn.before.equations, row.1.isExternal = true →
    turn.after.form? row.1 = none →
      turn.occasion = .dropping ∨ (turn.occasion = .clearing ∧ empties)

namespace Tableau

variable {tableau base other : Tableau Rat} {form : LinearForm Rat}
  {entering leaving symbol : Symbol} {constraint : Constraint Rat} {ledger priced : Ledger}

theorem Regular.secluded (regular : tableau.Regular kinds) : tableau.Secluded :=
  ⟨regular.confined, regular.objective_confined⟩

theorem Secluded.alike {other : Tableau Rat} (secluded : tableau.Secluded)
    (alike : tableau.Alike other) : other.Secluded := by
  constructor
  · rw [alike.equations]
    exact secluded.rows
  · rw [alike.objective]
    exact secluded.objective

/-- A turn is guarded if no row goes. -/
theorem guarded_of_kept {kinds' : Nat → Symbol.Kind} {change : Change Rat}
    (regular : tableau.Regular kinds) (regular' : (change.run tableau).Regular kinds')
    (enters : occasion.isPhase = true → ∀ symbol ∈ change.entering?, symbol.isRestricted = true)
    (kept : ∀ symbol, (change.run tableau).form? symbol = none → tableau.form? symbol = none) :
    (⟨occasion, change, tableau⟩ : Turn Rat).Guarded empties := by
  refine ⟨regular.secluded, regular'.secluded, enters, fun row member _ gone => ?_⟩
  exact absurd (kept row.1 gone) (by rw [form?_of_mem member]; exact Option.some_ne_none _)

/-- The row of an external symbol may be taken out only together with a marker. -/
theorem Regular.guarded_take (regular : tableau.Regular kinds)
    (spared : occasion = .dropping ∨ (symbol.Proper kinds ∧ symbol.isExternal = false)) :
    (⟨occasion, .take symbol, tableau⟩ : Turn Rat).Guarded empties := by
  refine ⟨regular.secluded, (regular.discard symbol).secluded, fun _ => nofun, ?_⟩
  intro row member is_external
  change (tableau.discard symbol).form? row.1 = none → _
  rw [form?_discard]
  rcases spared with dropping | ⟨proper, internal⟩
  · exact fun _ => Or.inl dropping
  · split
    · rename_i same
      rw [(regular.proper row member).eq_of_id_eq proper same, internal] at is_external
      exact Bool.noConfusion is_external
    · rw [form?_of_mem member]
      exact fun absurdity => absurd absurdity (Option.some_ne_none _)

/-- No row goes when another one is put in. -/
theorem form?_of_form?_put (symbol : Symbol) (form : LinearForm Rat) (sought : Symbol)
    (absent : (tableau.put symbol form).form? sought = none) : tableau.form? sought = none := by
  rw [form?_put] at absent
  split at absent
  · exact absurd absent (Option.some_ne_none _)
  · exact absent

/-- Solving an equation takes guarded turns. -/
theorem Exchange.guarded_pivot (exchange : base.Exchange kinds form entering leaving)
    (confined : entering.isExternal = true ∨ Internal form leaving)
    (restricted : occasion.isPhase = true → entering.isRestricted = true) :
    ∀ turn ∈ Turn.series occasion base (Change.pivot form entering leaving),
      turn.Guarded empties := by
  have eliminated := exchange.regular_eliminate (exchange.internal_or_aside confined)
  refine List.forall_mem_cons.mpr ⟨?_, List.forall_mem_singleton.mpr ?_⟩
  · refine guarded_of_kept exchange.regular eliminated (fun phase symbol => ?_) ?_
    · rintro ⟨⟩
      exact restricted phase
    · exact fun symbol => (Exchange.form?_eliminate_eq_none_iff entering _ symbol).mp
  · exact guarded_of_kept eliminated (exchange.regular_pivot confined) (fun _ => nofun)
      (form?_of_form?_put entering _)

/-- Exchanging a basic symbol that is not external takes guarded turns. -/
theorem Exchange.guarded (exchange : (tableau.discard leaving).Exchange kinds form entering leaving)
    (regular : tableau.Regular kinds) (proper : leaving.Proper kinds)
    (internal : Internal form leaving)
    (restricted : occasion.isPhase = true → entering.isRestricted = true) :
    ∀ turn ∈ Turn.series occasion tableau (Change.exchange form entering leaving),
      turn.Guarded empties :=
  List.forall_mem_cons.mpr ⟨regular.guarded_take (Or.inr ⟨proper, internal.2⟩),
    exchange.guarded_pivot (Or.inr internal) restricted⟩

namespace Descent

variable {start now following : Descent Rat}

/-- What lowers the goal is restricted, because the goal mentions no external symbol. -/
theorem Sound.isRestricted_entering (sound : Sound kinds start now)
    (chosen : now.goal.entering? = some entering) : entering.isRestricted = true := by
  obtain ⟨amount, in_goal, not_dummy, _⟩ := LinearForm.of_entering?_eq_some chosen
  exact Symbol.isRestricted_of_internal (sound.settled.proper _ in_goal).1
    (sound.confined _ in_goal) not_dummy

theorem Sound.guarded_turns (sound : Sound kinds start now) (moves : now.step = .next following) :
    Turn.All (Turn.Guarded empties) now.tableau now.turns following.tableau := by
  apply claim_turns moves
  intro division chosen left found
  obtain ⟨exchange, internal, _, _⟩ := sound.exchange chosen left found
  exact exchange.guarded sound.equivalent.regular (sound.proper_leaving left) internal
    fun _ => sound.isRestricted_entering chosen

/-- A symbol that nothing stops from growing is restricted as well. -/
theorem Sound.guarded_lastTurns (sound : Sound kinds start now) :
    Turn.All (Turn.Guarded empties) now.tableau now.lastTurns now.tableau := by
  apply claim_lastTurns
  intro entering chosen
  refine List.forall_mem_singleton.mpr (guarded_of_kept sound.equivalent.regular
    sound.equivalent.regular (fun _ symbol => ?_) fun _ => id)
  rintro ⟨⟩
  exact sound.isRestricted_entering chosen

end Descent

/-- The primal phase takes guarded turns. -/
theorem Regular.guarded_descendTurns (regular : tableau.Regular kinds) (tidy : tableau.Tidy kinds)
    {goal? : Option (LinearForm Rat)}
    (settled : tableau.Settled kinds (goal?.getD tableau.objective))
    (confined : (goal?.getD tableau.objective).Over fun symbol => symbol.isExternal = false)
    (steps : Nat) : Turn.All (Turn.Guarded empties) tableau (tableau.descendTurns steps goal?)
      (tableau.descend steps goal?).state.tableau :=
  Turn.Composes.append (Turn.along_composes Descent.tableau
      (fun _ _ sound moves => ⟨sound.step moves, sound.guarded_turns moves⟩) steps
      (Descent.Sound.refl regular tidy settled confined))
    (descend_sound regular tidy settled confined steps).guarded_lastTurns

/-- Putting a row back takes guarded turns. -/
theorem Regular.guarded_put_back (regular : tableau.Regular kinds) (proper : leaving.Proper kinds)
    (internal : leaving.isExternal = false) (found : tableau.form? leaving = some form) :
    ∀ turn ∈ Turn.series occasion tableau [.take leaving, .put leaving form],
      turn.Guarded empties :=
  List.forall_mem_cons.mpr ⟨regular.guarded_take (Or.inr ⟨proper, internal⟩),
    List.forall_mem_singleton.mpr (guarded_of_kept (regular.discard leaving)
      (regular.equivalent_put_discard proper found).regular (fun _ => nofun)
      (form?_of_form?_put leaving form))⟩

/-- Only rows of symbols other than external ones wait for repair, so a restricted symbol lifts
them. -/
theorem Regular.guarded_repairStepTurns (regular : tableau.Regular kinds)
    (tidy : tableau.Tidy kinds) (moves : tableau.repairStep = .next other) :
    Turn.All (Turn.Guarded empties) tableau tableau.repairStepTurns other := by
  have waits : ∀ leaving waiting, tableau.agenda.repairs = leaving :: waiting →
      leaving.Proper kinds ∧ leaving.isExternal = false := fun leaving waiting queue =>
    tidy.queue leaving (queue ▸ List.mem_cons_self)
  have calmed : ∀ leaving waiting, (tableau.calmed leaving waiting).Regular kinds :=
    fun leaving waiting => (tableau.alike_calmed leaving waiting).regular regular
  apply claim_repairStepTurns moves
  · intro leaving waiting form entering queue found chosen
    obtain ⟨proper, internal⟩ := waits leaving waiting queue
    have found_calmed := ((tableau.alike_calmed leaving waiting).form? leaving).trans found
    have confined := (calmed leaving waiting).confined _
      ((calmed leaving waiting).mem_equations proper found_calmed) internal
    obtain ⟨coefficient, member, not_dummy, _⟩ := of_lifting?_eq_some chosen
    have exchange := (calmed leaving waiting).exchange_lifted proper found_calmed chosen
    exact exchange.guarded (calmed leaving waiting) proper ⟨confined, internal⟩ fun _ =>
      Symbol.isRestricted_of_internal exchange.proper.1 (confined _ member) not_dummy
  · intro leaving waiting form queue found
    obtain ⟨proper, internal⟩ := waits leaving waiting queue
    exact (calmed leaving waiting).guarded_put_back proper internal
      (((tableau.alike_calmed leaving waiting).form? leaving).trans found)

/-- The dual phase takes guarded turns. -/
theorem Regular.guarded_repairTurns (regular : tableau.Regular kinds) (tidy : tableau.Tidy kinds)
    (steps : Nat) : Turn.All (Turn.Guarded empties) tableau (tableau.repairTurns steps)
      (tableau.repair steps).state := by
  have keeps : ∀ now following : Tableau Rat, now.Regular kinds ∧ now.Tidy kinds →
      now.repairStep = .next following → (following.Regular kinds ∧ following.Tidy kinds) ∧
        Turn.All (Turn.Guarded empties) now now.repairStepTurns following := by
    rintro now following ⟨regular, tidy⟩ moves
    obtain ⟨equivalent, tidy'⟩ := (of_repairStep_eq_next moves).equivalent regular tidy
    exact ⟨⟨equivalent.regular, tidy'⟩, regular.guarded_repairStepTurns tidy moves⟩
  exact Turn.along_composes id keeps steps ⟨regular, tidy⟩

/-- Making the artificial symbol free takes guarded turns. -/
theorem Tried.guarded_freeing {discipline : Discipline} {now : Descent Rat} {reached : Bool}
    {artificial : Symbol}
    (tried : Tried discipline kinds ledger constraint base form artificial now reached) :
    ∀ turn ∈ Turn.series .trying now.tableau (now.tableau.freeingChanges artificial),
      turn.Guarded empties := by
  unfold freeingChanges
  cases found : now.tableau.form? artificial with
  | none => exact fun _ member => absurd member List.not_mem_nil
  | some remaining =>
      obtain ⟨varies, entering, chosen⟩ := tried.exists_entering found
      obtain ⟨exchange, internal⟩ := tried.trial.posed.exchange_artificial tried.sound.equivalent
        tried.trial.internal found chosen
      simp only [varies, chosen, Bool.false_eq_true, if_false]
      exact exchange.guarded tried.sound.equivalent.regular tried.trial.proper internal nofun

/-- Taking out the marker of a constraint that nobody pays for takes guarded turns. -/
theorem Stands.guarded_marker (stands : tableau.Stands kinds (constraint :: ledger) ledger)
    (entries : Ledger.Regular kinds (constraint :: ledger)) :
    ∀ turn ∈ Turn.series .dropping tableau (tableau.markerChanges constraint.markers.marker),
      turn.Guarded empties := by
  have regular := stands.regular
  have dropped := stands.regular_dropMarker entries
  rw [← runAll_markerChanges] at dropped
  revert dropped
  unfold markerChanges
  cases tableau.form? constraint.markers.marker with
  | some form => exact fun _ => List.forall_mem_singleton.mpr (regular.guarded_take (Or.inl rfl))
  | none =>
      cases tableau.markerDivision? constraint.markers.marker with
      | none => exact fun _ _ member => absurd member List.not_mem_nil
      | some division =>
          intro dropped
          refine List.forall_mem_cons.mpr ⟨regular.guarded_take (Or.inl rfl),
            List.forall_mem_singleton.mpr (guarded_of_kept (regular.discard _) dropped nofun ?_)⟩
          exact fun symbol => (Exchange.form?_eliminate_eq_none_iff _ _ symbol).mp

/-- Cutting off what nobody holds is a guarded turn. -/
theorem Stands.guarded_truncate (stands : tableau.Stands kinds ledger priced) {mark : Nat}
    (below : ledger.Below mark) (priced_below : priced.Below mark) :
    (⟨.cutting, .truncate mark, tableau⟩ : Turn Rat).Guarded empties := by
  obtain ⟨alike, stands', _⟩ := stands.truncate below priced_below
  exact guarded_of_kept stands.regular stands'.regular nofun
    fun symbol gone => (alike.form? symbol).symm.trans gone

end Tableau

end SoftSimplex
