import SoftSimplex.Proofs.Tableau.OrderedPhases

/-!
# Waiting rows

A row that is flagged waits in the queue of repairs, whatever the arithmetic does and wherever the
two phases have come to. Nothing has to be known about symbols for that: rows are found by number,
a flag stays behind when its row is taken out, and what stays in the queue without a row does no
harm. A tableau is calm if nothing waits and no row is flagged, which is how the dual phase leaves
it.
-/

namespace SoftSimplex.Tableau

variable {α : Type} {tableau other : Tableau α}

/-- Nothing waits for repair, and no row is flagged. -/
structure Calm (tableau : Tableau α) : Prop where
  idle : tableau.agenda.repairs = []
  unflagged : ∀ entry ∈ tableau.rows.entries, entry.2.isQueued = false

theorem Calm.flagged (calm : tableau.Calm) : tableau.Flagged := by
  intro entry member queued
  rw [calm.unflagged entry member] at queued
  exact Bool.noConfusion queued

/-- Only the rows and the queue count. -/
theorem Calm.alike (calm : tableau.Calm) (rows : other.rows = tableau.rows)
    (repairs : other.agenda.repairs = tableau.agenda.repairs) : other.Calm :=
  ⟨repairs.trans calm.idle, rows ▸ calm.unflagged⟩

theorem calm_empty [Scalar α] : (empty : Tableau α).Calm :=
  ⟨rfl, fun _ member => absurd member List.not_mem_nil⟩

namespace Flagged

variable (flagged : tableau.Flagged)

include flagged

/-- With nothing in the queue no row can be flagged. -/
theorem calm (idle : tableau.agenda.repairs = []) : tableau.Calm := by
  refine ⟨idle, fun entry member => ?_⟩
  by_contra queued
  obtain ⟨symbol, waits, _⟩ := flagged entry member ((Bool.not_eq_false _).mp queued)
  rw [idle] at waits
  exact List.not_mem_nil waits

/-- Only the rows and the queue count. -/
theorem alike (rows : other.rows = tableau.rows)
    (repairs : other.agenda.repairs = tableau.agenda.repairs) : other.Flagged :=
  flagged.of_entries repairs fun entry member queued => ⟨entry, rows ▸ member, rfl, queued⟩

theorem forget (symbol : Symbol) : (tableau.forget symbol).Flagged :=
  flagged.map (·.without symbol) _

omit flagged in
theorem foldl_discard {symbols : List Symbol} (flagged : tableau.Flagged) :
    (symbols.foldl Tableau.discard tableau).Flagged := by
  induction symbols generalizing tableau with
  | nil => exact flagged
  | cons first rest inductionHypothesis => exact inductionHypothesis (flagged.discard first)

theorem truncate (mark : Nat) : (tableau.truncate mark).Flagged :=
  flagged.foldl_discard.map (·.restrict fun symbol => symbol.id ≤ mark) _

/-- A row that is taken out takes no flag along. -/
theorem of_take? {symbol : Symbol} {form : LinearForm α} {rest : Tableau α}
    (taken : tableau.take? symbol = some (form, rest)) : rest.Flagged := by
  have dropped := flagged.discard symbol
  rwa [Tableau.discard, taken] at dropped

variable [Scalar α]

theorem eliminate (symbol : Symbol) (definition : LinearForm α) :
    (tableau.eliminate symbol definition).Flagged :=
  flagged.pass (notes_eliminate symbol definition) _

theorem pivot (form : LinearForm α) (entering leaving : Symbol) :
    (tableau.pivot form entering leaving).Flagged :=
  (flagged.eliminate entering _).put entering _

theorem advance (symbol : Symbol) (amount : α) : (tableau.advance symbol amount).Flagged := by
  rw [advance_eq]
  exact flagged.pass (notes_advanceRow symbol amount) tableau.objective

theorem shift (markers : Markers) (amount : α) : (tableau.shift markers amount).Flagged := by
  unfold Tableau.shift
  split
  · exact flagged.raise markers.marker (-amount)
  · split
    · exact flagged.raise markers.other amount
    · exact flagged.advance markers.marker amount

theorem dropMarker (marker : Symbol) : (tableau.dropMarker marker).Flagged := by
  unfold Tableau.dropMarker
  cases taken : tableau.take? marker with
  | some pair => exact flagged.of_take? taken
  | none =>
      dsimp only
      split
      · exact flagged
      · rename_i leaving form rest chosen
        obtain ⟨_, _, mapped⟩ := Option.bind_eq_some_iff.mp chosen
        obtain ⟨pair, taken, same⟩ := Option.map_eq_some_iff.mp mapped
        obtain ⟨rfl, rfl⟩ := Prod.mk.inj same
        exact (flagged.of_take? taken).eliminate marker _

/-- However far the primal phase goes, a flagged row waits. -/
theorem descend (steps : Nat) (goal? : Option (LinearForm α)) :
    (tableau.descend steps goal?).state.tableau.Flagged := by
  refine iterate_invariant (?_ : ∀ descent following : Descent α, descent.tableau.Flagged →
    descent.step = .next following → following.tableau.Flagged) steps ⟨tableau, goal?⟩ flagged
  intro descent following now moves
  unfold Descent.step at moves
  split at moves
  · exact absurd moves (by simp)
  · split at moves
    · exact absurd moves (by simp)
    · split at moves
      · exact absurd moves (by simp)
      · rename_i taken
        rw [← Step.next.inj moves]
        exact (now.of_take? taken).pivot _ _ _

/-- A step of the dual phase takes the first symbol out of the queue and the flag off its row. -/
theorem repairStep (moves : tableau.repairStep = .next other) : other.Flagged := by
  cases serves_of_repairStep moves with
  | gone leaving waiting queue absent result =>
      rw [result]
      exact flagged.dequeued queue absent
  | calm leaving waiting _ queue _ _ result =>
      rw [result]
      exact flagged.calmed queue
  | lifted leaving waiting form queue _ _ entering _ result =>
      rw [result]
      exact ((flagged.calmed queue).discard leaving).pivot _ _ _
  | stuck leaving waiting form queue _ _ _ result =>
      rw [result]
      exact ((flagged.calmed queue).discard leaving).put leaving _

/-- However far the dual phase goes, a flagged row waits. -/
theorem repair (steps : Nat) : (tableau.repair steps).state.Flagged :=
  iterate_invariant (fun _ _ now moves => Flagged.repairStep now moves) steps tableau flagged

/-- The dual phase does not come to an end before everything is calm. -/
theorem calm_repair {steps : Nat} (done : (tableau.repair steps).result? = some ()) :
    (tableau.repair steps).state.Calm :=
  (flagged.repair steps).calm (repairs_repair done)

end Flagged

end SoftSimplex.Tableau
