import SoftSimplex.Proofs.Tableau.Arrangement
import SoftSimplex.Proofs.Tableau.Stages

/-!
# What a tableau attends to

Whatever the arithmetic does, the symbols that something remains to be done for are proper, and a
row that is flagged waits in the queue of repairs. The queue may hold symbols whose rows are gone.
-/

namespace SoftSimplex.Tableau

variable {α : Type} {kinds : Nat → Symbol.Kind} {tableau other : Tableau α} {symbol : Symbol}

/-- All noted symbols are proper, and every flagged row waits for repair. -/
structure Attended (kinds : Nat → Symbol.Kind) (tableau : Tableau α) : Prop where
  repairs : ∀ symbol ∈ tableau.agenda.repairs, symbol.Proper kinds
  touched : ∀ symbol ∈ tableau.agenda.touched, symbol.Proper kinds
  flagged : tableau.Flagged

namespace Attended

theorem empty [Scalar α] (kinds : Nat → Symbol.Kind) :
    (Tableau.empty : Tableau α).Attended kinds := by
  constructor
  · exact fun _ member => absurd member List.not_mem_nil
  · exact fun _ member => absurd member List.not_mem_nil
  · exact fun _ member => absurd member List.not_mem_nil

/-- Only the rows and the agenda count. -/
theorem with_objective (attended : tableau.Attended kinds) (objective : LinearForm α) :
    ({ tableau with objective } : Tableau α).Attended kinds :=
  ⟨attended.repairs, attended.touched, attended.flagged⟩

theorem told (attended : tableau.Attended kinds) : tableau.told.Attended kinds :=
  ⟨attended.repairs, fun _ member => absurd member List.not_mem_nil, attended.flagged⟩

/-- A proper symbol can be noted as touched while rows change. -/
theorem of_touch (attended : tableau.Attended kinds) (proper : symbol.Proper kinds)
    (agenda : other.agenda = tableau.agenda.touch symbol) (flagged : other.Flagged) :
    other.Attended kinds := by
  refine ⟨?_, ?_, flagged⟩
  · rw [agenda, agenda_touch_repairs]
    exact attended.repairs
  · rw [agenda]
    intro noted member
    rcases mem_touch member with before | rfl
    · exact attended.touched noted before
    · exact proper

theorem discard (attended : tableau.Attended kinds) (proper : symbol.Proper kinds) :
    (tableau.discard symbol).Attended kinds := by
  cases found : tableau.rows.get? symbol with
  | none =>
      rw [Tableau.discard, take?, found]
      exact attended
  | some row =>
      apply attended.of_touch proper
      · simp [Tableau.discard, take?, found]
      · exact attended.flagged.discard symbol

theorem put (attended : tableau.Attended kinds) (proper : symbol.Proper kinds)
    (form : LinearForm α) : (tableau.put symbol form).Attended kinds :=
  attended.of_touch proper rfl (attended.flagged.put symbol form)

theorem forget (attended : tableau.Attended kinds) (symbol : Symbol) :
    (tableau.forget symbol).Attended kinds :=
  ⟨attended.repairs, attended.touched, attended.flagged.map (·.without symbol) _⟩

theorem dequeued (attended : tableau.Attended kinds) {leaving : Symbol} {waiting : List Symbol}
    (queue : tableau.agenda.repairs = leaving :: waiting)
    (absent : tableau.form? leaving = none) : (tableau.dequeued waiting).Attended kinds := by
  constructor
  · exact fun symbol member => attended.repairs symbol (queue ▸ List.mem_cons_of_mem _ member)
  · exact attended.touched
  · exact attended.flagged.dequeued queue absent

theorem calmed (attended : tableau.Attended kinds) {leaving : Symbol} {waiting : List Symbol}
    (queue : tableau.agenda.repairs = leaving :: waiting) :
    (tableau.calmed leaving waiting).Attended kinds := by
  constructor
  · exact fun symbol member => attended.repairs symbol (queue ▸ List.mem_cons_of_mem _ member)
  · exact attended.touched
  · exact attended.flagged.calmed queue

variable [Scalar α]

/-- A pass over proper rows that notes what it changes. -/
theorem pass (attended : tableau.Attended kinds)
    (proper : ∀ row ∈ tableau.equations, row.1.Proper kinds)
    {action : Agenda → Symbol → Row α → Row α × Agenda} (notes : Agenda.Notes action)
    (objective : LinearForm α) :
    Attended kinds ⟨(tableau.rows.pass tableau.agenda action).1, objective,
      (tableau.rows.pass tableau.agenda action).2⟩ := by
  have entry_proper : ∀ entry ∈ tableau.rows.entries, entry.1.Proper kinds :=
    fun entry member => proper (entry.1, entry.2.form) (List.mem_map_of_mem member)
  have walked := tableau.rows.pass_eq tableau.agenda action
  obtain ⟨_, _, origin, _⟩ := notes.passEntries tableau.rows.entries tableau.agenda
  have origin_touched := touched_passEntries notes tableau.rows.entries tableau.agenda
  rw [← walked] at origin origin_touched
  constructor
  · intro symbol member
    rcases origin symbol member with before | ⟨_, entry, inside, rfl⟩
    · exact attended.repairs symbol before
    · exact entry_proper entry inside
  · intro symbol member
    rcases origin_touched symbol member with before | ⟨entry, inside, rfl⟩
    · exact attended.touched symbol before
    · exact entry_proper entry inside
  · exact attended.flagged.pass notes objective

theorem eliminate (attended : tableau.Attended kinds)
    (proper : ∀ row ∈ tableau.equations, row.1.Proper kinds) (symbol : Symbol)
    (definition : LinearForm α) : (tableau.eliminate symbol definition).Attended kinds :=
  attended.pass proper (notes_eliminate symbol definition) _

theorem pivot (attended : tableau.Attended kinds)
    (proper : ∀ row ∈ tableau.equations, row.1.Proper kinds) {entering : Symbol}
    (proper_entering : entering.Proper kinds) (form : LinearForm α) (leaving : Symbol) :
    (tableau.pivot form entering leaving).Attended kinds :=
  (attended.eliminate proper entering _).put proper_entering _

theorem advance (attended : tableau.Attended kinds)
    (proper : ∀ row ∈ tableau.equations, row.1.Proper kinds) (symbol : Symbol) (amount : α) :
    (tableau.advance symbol amount).Attended kinds := by
  rw [advance_eq]
  exact attended.pass proper (notes_advanceRow symbol amount) tableau.objective

/-- Raising the row of a symbol queues it at most. -/
theorem raise (attended : tableau.Attended kinds) (proper : symbol.Proper kinds) (amount : α) :
    (tableau.raise symbol amount).Attended kinds := by
  constructor
  · intro noted member
    rcases mem_repairs_raise member with rfl | before
    · exact proper
    · exact attended.repairs noted before
  · rw [touched_raise]
    exact attended.touched
  · exact attended.flagged.raise symbol amount

end Attended

end SoftSimplex.Tableau
