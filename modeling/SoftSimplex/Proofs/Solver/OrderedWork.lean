import SoftSimplex.Proofs.Solver.Filing
import SoftSimplex.Solver.Activation

/-!
# Work in order

The actions that change nothing but the tableau keep it in order, whatever the arithmetic does and
wherever they pause. The artificial symbol is drawn above all others. It has no row by the time it
is forgotten, so its number can be given back.
-/

namespace SoftSimplex

variable {α : Type} [Scalar α] {kinds : Nat → Symbol.Kind} {mark : Nat} {inside : Nat → Prop}
  {solver after : Solver α} {form : LinearForm α} {markers : Markers}
  {refused : Refusal → Solver α → Prop}

namespace Solver

/-- Work on the tableau that has left nothing to be repaired. -/
structure Repaired (kinds : Nat → Symbol.Kind) (mark : Nat) (inside : Nat → Prop)
    (solver after : Solver α) : Prop extends Reworked kinds mark inside solver after where
  rested : after.tableau.agenda.repairs = []

theorem Repaired.after_rework {between : Solver α} {inside' : Nat → Prop}
    (reworked : Reworked kinds mark inside solver between)
    (repaired : Repaired kinds mark inside' between after) :
    Repaired kinds mark inside' solver after :=
  ⟨reworked.trans repaired.toReworked, repaired.rested⟩

/-- Once nothing is left to be repaired, everything is accounted for if the constraints are
filed. -/
theorem Repaired.accounted (repaired : Repaired kinds mark (· ≤ solver.symbols.last) solver after)
    (filed : solver.constraints.Filed kinds solver.symbols.last)
    (low : mark ≤ solver.symbols.last) : after.Accounted kinds := by
  have tended := repaired.toTended.rekind (fun _ _ => rfl) low
  have ordered := repaired.ordered
  rw [← repaired.symbols] at tended ordered filed
  rw [← repaired.constraints] at filed
  exact ⟨⟨tended, ordered, repaired.untouched⟩, filed, repaired.rested⟩

theorem Repaired.refresh (repaired : Repaired kinds mark inside solver after) :
    Repaired kinds mark inside solver after.refresh :=
  ⟨⟨repaired.toWorkable.refresh, repaired.toTracks.trans (.refresh after),
    repaired.toSameRecords.trans (.refresh after), repaired.constraints, repaired.symbols⟩,
    repaired.rested⟩

/-- Such work followed by the refresh that may be called for. -/
structure Rested (kinds : Nat → Symbol.Kind) (mark : Nat) (inside : Nat → Prop)
    (solver after : Solver α) : Prop extends Repaired kinds mark inside solver after,
      Renews solver after

theorem Repaired.refreshIfAutomatic (repaired : Repaired kinds mark inside solver after) :
    Rested kinds mark inside solver (if after.autoUpdate then after.refresh else after) := by
  constructor
  · split
    · exact repaired.refresh
    · exact repaired
  · exact (repaired.toTracks.renews (.refreshIfAutomatic after)).renewed

/-- The artificial symbol is the only one above the mark, and no row mentions it yet. The form that
it was given becomes a goal, which does not mention it either. -/
theorem Workable.reworked_artificial
    (workable : solver.Workable kinds mark (· ≤ solver.symbols.last))
    (proper : (solver.symbols.draw .slack).1.Proper kinds)
    (spanned : form.Over (solver.tableau.FreeWithin kinds (· ≤ solver.symbols.last))) :
    Reworked kinds mark (· ≤ solver.symbols.last + 1)
        { solver with symbols := (solver.symbols.draw .slack).2 }
        (({ solver with symbols := (solver.symbols.draw .slack).2 } : Solver α).adopt
          (solver.tableau.put (solver.symbols.draw .slack).1 form)) ∧
      ∀ goal, some form = some goal → goal.Over
        ((({ solver with symbols := (solver.symbols.draw .slack).2 } : Solver α).adopt
          (solver.tableau.put (solver.symbols.draw .slack).1 form)).tableau.FreeWithin kinds
            (· ≤ solver.symbols.last + 1)) := by
  have below : ∀ id, id ≤ solver.symbols.last →
      id ≤ solver.symbols.last + 1 ∧ id ≠ (solver.symbols.draw .slack).1.id := by
    intro id low
    exact ⟨Nat.le_succ_of_le low, (Nat.lt_succ_of_le low).ne⟩
  have over_apart := spanned.mono fun _ free => (⟨free.1, below _ free.2⟩ :
    solver.tableau.FreeWithin kinds (fun id => id ≤ solver.symbols.last + 1 ∧
      id ≠ (solver.symbols.draw .slack).1.id) _)
  have tended : ({ solver with symbols := (solver.symbols.draw .slack).2 } : Solver α).Tended
      kinds mark := ⟨workable.registered, workable.waiting⟩
  constructor
  · exact tended.reworked_adopt
      ((workable.ordered.mono below).put proper (Nat.le_refl _) over_apart)
      (Tableau.reports_put proper form)
  · have over_put : form.Over ((solver.tableau.put (solver.symbols.draw .slack).1 form).FreeWithin
        kinds (· ≤ solver.symbols.last + 1)) :=
      fun term member => Tableau.Arranged.freeWithin_put (over_apart term member)
    intro goal given
    rw [← Option.some.inj given, adopt_tableau]
    exact over_put

end Solver

namespace Action

open Solver

theorem meets_descend (workable : solver.Workable kinds mark inside)
    {goal? : Option (LinearForm α)}
    (written : ∀ goal, goal? = some goal → goal.Over (solver.tableau.FreeWithin kinds inside)) :
    (descend goal?).Meets solver (fun _ after => Reworked kinds mark inside solver after)
      refused InOrder := by
  have ordered := fun steps => (workable.ordered.descend written steps).tableau
  have reports := workable.ordered.reports_descend written
  apply Meets.descend
  · exact fun steps _ _ => workable.reworked_adopt (ordered steps) (reports steps)
  · exact fun steps => (workable.workable_adopt (ordered steps)).inOrder

theorem meets_repair (workable : solver.Workable kinds mark inside) :
    (repair : Action α Unit).Meets solver
      (fun _ after => Repaired kinds mark inside solver after) refused InOrder := by
  have ordered := workable.ordered.repair
  apply Meets.repair
  · intro steps done
    constructor
    · exact workable.reworked_adopt (ordered steps) (workable.ordered.reports_repair steps)
    · rw [adopt_tableau]
      exact Tableau.repairs_repair done
  · exact fun steps => (workable.workable_adopt (ordered steps)).inOrder

theorem meets_optimize (workable : solver.Workable kinds mark inside) :
    (optimize : Action α Unit).Meets solver
      (fun _ after => Repaired kinds mark inside solver after) refused InOrder := by
  apply Meets.bind
  · apply meets_descend workable
    exact fun goal given => absurd given.symm (Option.some_ne_none goal)
  · intro _ between reworked
    apply (meets_repair reworked.toWorkable).weaken
    exact fun _ after repaired => repaired.after_rework reworked

/-- The two phases and the refresh that may follow. -/
theorem meets_settle (workable : solver.Workable kinds mark inside) :
    (do optimize; refreshIfAutomatic : Action α Unit).Meets solver
      (fun _ after => Rested kinds mark inside solver after) refused InOrder := by
  apply Meets.bind (meets_optimize workable)
  intro _ between repaired
  exact Meets.update repaired.refreshIfAutomatic

/-- A basic symbol has no row any more when it has been made free. -/
theorem meets_freeArtificial (workable : solver.Workable kinds mark inside) {artificial : Symbol}
    (proper : artificial.Proper kinds) :
    (freeArtificial artificial).Meets solver
      (fun _ after => Reworked kinds mark inside solver after ∧
        after.tableau.form? artificial = none) refused InOrder := by
  apply Meets.read_bind
  rw [Tableau.take?_eq]
  cases found : solver.tableau.form? artificial with
  | none => exact Meets.pure ⟨workable.reworked, found⟩
  | some remaining =>
      have member := workable.ordered.mem_equations proper found
      have dropped : Reworked kinds mark inside solver
          (solver.adopt (solver.tableau.discard artificial)) ∧
            (solver.adopt (solver.tableau.discard artificial)).tableau.form? artificial = none := by
        constructor
        · apply workable.reworked_adopt
          · exact (workable.ordered.discard member).mono fun _ => And.left
          · exact Tableau.reports_discard proper
        · rw [adopt_tableau]
          exact (solver.tableau.form?_discard artificial artificial).trans (if_pos rfl)
      simp only [Option.map_some]
      split
      · exact Meets.rework_bind (Meets.pure dropped)
      · cases chosen : remaining.restricted? with
        | none => exact Meets.rework_bind (Meets.pure dropped)
        | some entering =>
            obtain ⟨_, coefficient, mentioned⟩ := LinearForm.of_restricted?_eq_some chosen
            have free := workable.ordered.written _ member _ mentioned
            refine Meets.rework_bind (Meets.pure ⟨?_, ?_⟩)
            · exact workable.reworked_adopt (workable.ordered.exchange member free)
                (workable.ordered.reports_exchange member free)
            · rw [adopt_tableau]
              refine (Tableau.form?_pivot_discard_eq_none_iff remaining entering artificial
                artificial).mpr ⟨?_, Or.inl rfl⟩
              exact (free.1.id_ne found).symm

/-- The artificial symbol is gone when its number is given back. -/
theorem meets_placeArtificially
    (workable : solver.Workable kinds mark (· ≤ solver.symbols.last))
    (proper : (solver.symbols.draw .slack).1.Proper kinds)
    (spanned : form.Over (solver.tableau.FreeWithin kinds (· ≤ solver.symbols.last))) :
    (placeArtificially form).Meets solver
      (fun _ after => Reworked kinds mark (· ≤ solver.symbols.last) solver after)
        refused InOrder := by
  obtain ⟨filed, written⟩ := workable.reworked_artificial proper spanned
  refine Meets.read_bind (Meets.update_bind (Meets.rework_bind ?_))
  apply Meets.bind (meets_descend filed.toWorkable written)
  rintro ⟨reached, goal?⟩ tried lowered
  apply Meets.bind (meets_freeArtificial lowered.toWorkable proper)
  rintro replaced freed ⟨cleared, absent⟩
  have through := (filed.trans lowered).trans cleared
  have forgotten := through.trans (through.reworked_adopt (through.ordered.forget absent)
    (Tableau.reports_forget _ _))
  -- Neither drawing a symbol nor giving it back concerns the caches.
  have drawn := SameCaches.with_symbols solver (solver.symbols.draw .slack).2
  refine Meets.rework_bind (Meets.update_bind (Meets.pure ?_))
  exact {
    registered := forgotten.registered
    waiting := forgotten.waiting
    ordered := forgotten.ordered.mono fun id both =>
      Nat.le_of_lt_succ (lt_of_le_of_ne both.1 both.2)
    untouched := forgotten.untouched
    autoUpdate := forgotten.autoUpdate
    aware := fun aware => (SameCaches.with_symbols _ _).aware
      (forgotten.aware (drawn.aware aware))
    identity := forgotten.identity
    lastConstraint := forgotten.lastConstraint
    outline := forgotten.outline
    constraints := forgotten.constraints
    symbols := rfl }

/-- What comes of looking for a place for a row. Either it has found one, or no symbol of the row
can be made basic at once. Then the row consists of dummies and nothing has been changed, or it has
been tried in vain. -/
inductive Seating (kinds : Nat → Symbol.Kind) (mark : Nat) (form : LinearForm α)
    (markers : Markers) (solver : Solver α) : Except Refusal Unit → Solver α → Prop where
  | placed {after : Solver α}
      (reworked : Reworked kinds mark (· ≤ solver.symbols.last) solver after) :
      Seating kinds mark form markers solver (.ok ()) after
  | unsatisfied (stuck : form.subject? [markers.marker, markers.other] = none)
      (dummies : form.hasOnlyDummies = true) :
      Seating kinds mark form markers solver (.error .unsatisfied) solver
  | unbound {after : Solver α} (stuck : form.subject? [markers.marker, markers.other] = none)
      (reworked : Reworked kinds mark (· ≤ solver.symbols.last) solver after) :
      Seating kinds mark form markers solver (.error .unbound) after

theorem meets_place (workable : solver.Workable kinds mark (· ≤ solver.symbols.last))
    (proper : (solver.symbols.draw .slack).1.Proper kinds)
    (spanned : form.Over (solver.tableau.FreeWithin kinds (· ≤ solver.symbols.last)))
    (marker : solver.tableau.FreeWithin kinds (· ≤ solver.symbols.last) markers.marker)
    (second : markers.other.isNull = false →
      solver.tableau.FreeWithin kinds (· ≤ solver.symbols.last) markers.other) :
    (place form markers).Meets solver (Seating kinds mark form markers solver) refused
      InOrder := by
  have pivoted : ∀ subject : Symbol,
      solver.tableau.FreeWithin kinds (· ≤ solver.symbols.last) subject →
        Seating kinds mark form markers solver (.ok ())
          (solver.adopt (solver.tableau.pivot form subject Symbol.null)) := by
    intro subject free
    apply Seating.placed
    apply workable.reworked_adopt
    · exact workable.ordered.pivot free spanned fun absurdity => Bool.noConfusion absurdity
    · exact workable.ordered.reports_pivot free.1.1 form Symbol.null
  unfold place
  cases chosen : form.subject? [markers.marker, markers.other] with
  | some subject =>
      refine Meets.rework_bind (Meets.pure (pivoted subject (spanned.of_subject? ?_ chosen)))
      exact List.forall_mem_cons.mpr ⟨fun _ => marker, List.forall_mem_singleton.mpr second⟩
  | none =>
      dsimp only
      split
      · rename_i dummies
        split
        · exact Meets.rework_bind (Meets.pure (pivoted _ marker))
        · exact Meets.pure (.unsatisfied chosen dummies)
      · apply Meets.bind (meets_placeArtificially workable proper spanned)
        intro succeeded after reworked
        cases succeeded with
        | true => exact Meets.pure (.placed reworked)
        | false => exact Meets.pure (.unbound chosen reworked)

end Action

end SoftSimplex
