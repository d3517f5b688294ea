import SoftSimplex.Proofs.Tableau.Attention

/-!
# Ordered tableaus

An ordered tableau is arranged within a range of numbers, and attended to. Every operation keeps a
tableau in order, whatever the arithmetic does. A range is narrowed by taking symbols out, and it is
widened by giving a fresh symbol a row or a price. The queue of repairs may hold symbols outside of
the range until the dual phase has emptied it.
-/

namespace SoftSimplex

namespace Tableau

variable {α : Type} {kinds : Nat → Symbol.Kind} {inside : Nat → Prop} {tableau other : Tableau α}
  {symbol entering leaving marker : Symbol} {form definition : LinearForm α}

/-- The symbols of rows and forms are told apart and lie in a range of numbers, noted symbols are
proper, and every flagged row waits. -/
structure Ordered (kinds : Nat → Symbol.Kind) (inside : Nat → Prop) (tableau : Tableau α) : Prop
    extends Arranged kinds inside tableau, Attended kinds tableau

namespace Ordered

theorem mono (ordered : tableau.Ordered kinds inside) {wider : Nat → Prop}
    (within : ∀ id, inside id → wider id) : tableau.Ordered kinds wider :=
  ⟨ordered.toArranged.mono within, ordered.toAttended⟩

theorem told (ordered : tableau.Ordered kinds inside) : tableau.told.Ordered kinds inside :=
  ⟨ordered.toArranged.alike tableau.alike_told, ordered.toAttended.told⟩

/-- The objective may be replaced by any form in free symbols. -/
theorem with_objective (ordered : tableau.Ordered kinds inside) {objective : LinearForm α}
    (spanned : objective.Over (tableau.FreeWithin kinds inside)) :
    ({ tableau with objective } : Tableau α).Ordered kinds inside := by
  constructor
  · exact ⟨ordered.basic, ordered.written, spanned⟩
  · exact ordered.toAttended.with_objective objective

theorem proper_basic (ordered : tableau.Ordered kinds inside) :
    ∀ row ∈ tableau.equations, row.1.Proper kinds :=
  fun row member => (ordered.basic row member).1

theorem discard (ordered : tableau.Ordered kinds inside)
    (member : (leaving, form) ∈ tableau.equations) :
    (tableau.discard leaving).Ordered kinds fun id => inside id ∧ id ≠ leaving.id := by
  constructor
  · exact ordered.toArranged.discard (form?_of_mem member)
  · exact ordered.toAttended.discard (ordered.proper_basic _ member)

theorem put (ordered : tableau.Ordered kinds fun id => inside id ∧ id ≠ symbol.id)
    (proper : symbol.Proper kinds) (within : inside symbol.id)
    (spanned : form.Over (tableau.FreeWithin kinds fun id => inside id ∧ id ≠ symbol.id)) :
    (tableau.put symbol form).Ordered kinds inside :=
  ⟨ordered.toArranged.put proper within spanned, ordered.toAttended.put proper form⟩

/-- Forgetting a free symbol narrows the range by it. -/
theorem forget (ordered : tableau.Ordered kinds inside) (absent : tableau.form? symbol = none) :
    (tableau.forget symbol).Ordered kinds fun id => inside id ∧ id ≠ symbol.id := by
  have without : ∀ form : LinearForm α, form.Over (tableau.FreeWithin kinds inside) →
      (form.without symbol).Over
        (tableau.FreeWithin kinds fun id => inside id ∧ id ≠ symbol.id) := fun form spanned =>
    (spanned.without symbol).mono fun _ both => ⟨both.1.1, both.1.2, both.2⟩
  constructor
  · apply ordered.toArranged.of_rows
    · intro row member
      rw [equations_forget] at member
      obtain ⟨before, was, rfl⟩ := List.mem_map.mp member
      have elsewhere := (tableau.form?_eq_none_iff symbol).mp absent before was
      exact ⟨before, was, rfl, ⟨(ordered.basic before was).2, elsewhere⟩,
        without _ (ordered.written before was)⟩
    · exact without _ ordered.objective
  · exact ordered.toAttended.forget symbol

/-- Discarding the rows of some symbols leaves the other rows and the objective. -/
theorem equations_foldl_discard (symbols : List Symbol) (tableau : Tableau α) :
    (symbols.foldl Tableau.discard tableau).objective = tableau.objective ∧
      ∀ row ∈ (symbols.foldl Tableau.discard tableau).equations, row ∈ tableau.equations ∧
        ∀ symbol ∈ symbols, row.1.id ≠ symbol.id := by
  induction symbols generalizing tableau with
  | nil => exact ⟨rfl, fun row member => ⟨member, by simp⟩⟩
  | cons first rest inductionHypothesis =>
      obtain ⟨objective, rows⟩ := inductionHypothesis (tableau.discard first)
      refine ⟨objective.trans (tableau.objective_discard first), fun row member => ?_⟩
      obtain ⟨inside, apart⟩ := rows row member
      obtain ⟨before, elsewhere⟩ := (tableau.mem_equations_discard_iff first row).mp inside
      exact ⟨before, List.forall_mem_cons.mpr ⟨elsewhere, apart⟩⟩

theorem attended_foldl_discard {symbols : List Symbol} (attended : tableau.Attended kinds)
    (proper : ∀ symbol ∈ symbols, symbol.Proper kinds) :
    (symbols.foldl Tableau.discard tableau).Attended kinds := by
  induction symbols generalizing tableau with
  | nil => exact attended
  | cons first rest inductionHypothesis =>
      apply inductionHypothesis (attended.discard (proper first List.mem_cons_self))
      exact fun symbol member => proper symbol (List.mem_cons_of_mem _ member)

theorem over_restrict (spanned : form.Over (tableau.FreeWithin kinds inside)) (mark : Nat) :
    (form.restrict fun symbol => symbol.id ≤ mark).Over
      (tableau.FreeWithin kinds fun id => inside id ∧ id ≤ mark) := by
  intro term member
  obtain ⟨inside, low⟩ := (form.mem_terms_restrict_iff _ term).mp member
  exact ⟨(spanned term inside).1, (spanned term inside).2, of_decide_eq_true low⟩

/-- The symbols above a mark that have rows are proper. -/
theorem proper_above (ordered : tableau.Ordered kinds inside) (mark : Nat) :
    ∀ symbol ∈ tableau.rows.symbols.filter fun symbol => mark < symbol.id,
      symbol.Proper kinds := by
  intro symbol member
  obtain ⟨entry, was, rfl⟩ := List.mem_map.mp (List.mem_filter.mp member).1
  exact ordered.proper_basic (entry.1, entry.2.form) (List.mem_map_of_mem was)

/-- Taking out everything above a mark. -/
theorem truncate (ordered : tableau.Ordered kinds inside) (mark : Nat) :
    (tableau.truncate mark).Ordered kinds fun id => inside id ∧ id ≤ mark := by
  obtain ⟨objective, rows⟩ := equations_foldl_discard
    (tableau.rows.symbols.filter fun symbol => decide (mark < symbol.id)) tableau
  have attended := attended_foldl_discard ordered.toAttended (ordered.proper_above mark)
  unfold Tableau.truncate
  constructor
  · apply ordered.toArranged.of_rows
    · intro row member
      obtain ⟨entry, trimmed, rfl⟩ := List.mem_map.mp member
      dsimp only at trimmed
      rw [SlotTable.entries_map] at trimmed
      obtain ⟨kept, was, rfl⟩ := List.mem_map.mp trimmed
      obtain ⟨before, low⟩ := rows (kept.1, kept.2.form) (List.mem_map_of_mem was)
      refine ⟨_, before, rfl, ⟨(ordered.basic _ before).2, ?_⟩,
        over_restrict (ordered.written _ before) mark⟩
      by_contra high
      obtain ⟨entry, filed, same⟩ := List.mem_map.mp before
      refine low kept.1 (List.mem_filter.mpr ⟨?_, by simpa using high⟩) rfl
      exact List.mem_map.mpr ⟨entry, filed, (Prod.mk.inj same).1⟩
    · dsimp only
      rw [objective]
      exact over_restrict ordered.objective mark
  · exact ⟨attended.repairs, attended.touched,
      attended.flagged.map (·.restrict fun symbol => symbol.id ≤ mark) _⟩

variable [Scalar α]

/-- Without rows, prices and rows to be repaired. -/
theorem cleared (ordered : tableau.Ordered kinds inside) :
    ({ tableau with
      rows := tableau.rows.clear
      objective := tableau.objective.cleared
      agenda := { tableau.agenda with repairs := [] } } : Tableau α).Ordered kinds inside := by
  have rowless : (tableau.rows.clear).entries = [] := tableau.rows.entries_clear
  constructor
  · constructor
    · intro row member
      rw [equations, rowless] at member
      exact absurd member List.not_mem_nil
    · intro row member
      rw [equations, rowless] at member
      exact absurd member List.not_mem_nil
    · intro term member
      change term ∈ tableau.objective.coefficients.clear.entries at member
      rw [SlotTable.entries_clear] at member
      exact absurd member List.not_mem_nil
  · constructor
    · exact fun _ member => absurd member List.not_mem_nil
    · exact ordered.touched
    · intro entry member
      rw [rowless] at member
      exact absurd member List.not_mem_nil

theorem empty (kinds : Nat → Symbol.Kind) (inside : Nat → Prop) :
    (Tableau.empty : Tableau α).Ordered kinds inside :=
  ⟨Arranged.empty kinds inside, Attended.empty kinds⟩

theorem eliminate (ordered : tableau.Ordered kinds inside)
    (free : tableau.form? entering = none)
    (spanned : definition.Over
      (tableau.FreeWithin kinds fun id => inside id ∧ id ≠ entering.id)) :
    (tableau.eliminate entering definition).Ordered kinds
      fun id => inside id ∧ id ≠ entering.id := by
  constructor
  · exact ordered.toArranged.eliminate free spanned
  · exact ordered.toAttended.eliminate ordered.proper_basic entering definition

theorem pivot (ordered : tableau.Ordered kinds inside)
    (free : tableau.FreeWithin kinds inside entering)
    (spanned : form.Over (tableau.FreeWithin kinds inside))
    (freed : leaving.isNull = false →
      tableau.FreeWithin kinds inside leaving ∧ leaving.id ≠ entering.id) :
    (tableau.pivot form entering leaving).Ordered kinds inside := by
  constructor
  · exact ordered.toArranged.pivot free spanned freed
  · exact ordered.toAttended.pivot ordered.proper_basic free.1.1 form leaving

/-- Exchanging a basic symbol for a free one. -/
theorem exchange (ordered : tableau.Ordered kinds inside)
    (member : (leaving, form) ∈ tableau.equations)
    (free : tableau.FreeWithin kinds inside entering) :
    ((tableau.discard leaving).pivot form entering leaving).Ordered kinds inside := by
  have without := ordered.discard member
  constructor
  · exact ordered.toArranged.exchange member free
  · exact without.toAttended.pivot without.proper_basic free.1.1 form leaving

/-- Dropping a marker. -/
theorem dropMarker (ordered : tableau.Ordered kinds inside) (marker : Symbol)
    (proper : marker.id ≠ 0 → marker.Proper kinds) :
    (tableau.dropMarker marker).Ordered kinds inside := by
  unfold Tableau.dropMarker
  rw [take?_eq]
  cases found : tableau.form? marker with
  | some form =>
      obtain ⟨row, member, same, _⟩ := (tableau.form?_eq_some_iff marker form).mp found
      have present : marker.id ≠ 0 := same ▸ (ordered.proper_basic row member).1
      have filed := ordered.toArranged.mem_equations (proper present) found
      exact (ordered.discard filed).mono fun _ => And.left
  | none =>
      cases chosen : tableau.markerLeaving? marker with
      | none => exact ordered
      | some leaving =>
          obtain ⟨form, _, member, _⟩ := exists_row_of_markerLeaving? chosen
          have apart := (tableau.form?_eq_none_iff marker).mp found _ member
          have without := ordered.discard member
          have free : (tableau.discard leaving).form? marker = none := by
            rw [form?_discard, found, ite_self]
          have solved : (form.isolate marker leaving).Over ((tableau.discard leaving).FreeWithin
              kinds fun id => inside id ∧ id ≠ marker.id) := by
            apply Arranged.over_isolate
            · exact (ordered.written _ member).mono fun _ free =>
                Arranged.freeWithin_discard free leaving
            · exact fun _ => ⟨ordered.toArranged.free_leaving member, apart⟩
          simp only [Option.map_none, Option.bind_some, take?_eq, form?_of_mem member,
            Option.map_some]
          exact ((without.mono fun _ => And.left).eliminate free solved).mono fun _ => And.left

omit [Scalar α] in
/-- Rows whose constants have changed. -/
theorem arranged_of_terms (ordered : tableau.Ordered kinds inside)
    (rows : ∀ row ∈ other.equations, ∃ before ∈ tableau.equations, before.1 = row.1 ∧
      row.2.terms = before.2.terms)
    (objective : other.objective = tableau.objective) : other.Arranged kinds inside := by
  apply ordered.toArranged.of_rows
  · intro row member
    obtain ⟨before, was, named, terms⟩ := rows row member
    refine ⟨before, was, named, named ▸ (ordered.basic before was).2, ?_⟩
    unfold LinearForm.Over
    rw [terms]
    exact ordered.written before was
  · rw [objective]
    exact ordered.objective

theorem raise (ordered : tableau.Ordered kinds inside) (basic : tableau.form? symbol ≠ none)
    (proper : symbol.id ≠ 0 → symbol.Proper kinds) (amount : α) :
    (tableau.raise symbol amount).Ordered kinds inside := by
  have present : symbol.id ≠ 0 := by
    intro absent
    refine basic ((tableau.form?_eq_none_iff symbol).mpr fun row member same => ?_)
    exact (ordered.proper_basic row member).1 (same.trans absent)
  constructor
  · apply ordered.arranged_of_terms
    · intro row member
      rw [equations_raise basic] at member
      obtain ⟨before, was, rfl⟩ := List.mem_map.mp member
      refine ⟨before, was, rfl, ?_⟩
      split <;> rfl
    · exact objective_raise tableau symbol amount
  · exact ordered.toAttended.raise (proper present) amount

/-- Moving along a symbol changes constants only. -/
theorem exists_row_of_advance {amount : α} {row : Symbol × LinearForm α}
    (member : row ∈ (tableau.advance symbol amount).equations) :
    ∃ before ∈ tableau.equations, before.1 = row.1 ∧ row.2.terms = before.2.terms := by
  rw [equations_advance_eq_grow] at member
  obtain ⟨before, was, rfl⟩ := List.mem_map.mp member
  exact ⟨before, was, rfl, terms_grow before.2 symbol amount⟩

theorem advance (ordered : tableau.Ordered kinds inside) (symbol : Symbol) (amount : α) :
    (tableau.advance symbol amount).Ordered kinds inside := by
  constructor
  · apply ordered.arranged_of_terms
    · exact fun _ => exists_row_of_advance
    · rfl
  · exact ordered.toAttended.advance ordered.proper_basic symbol amount

/-- Moving a target, whatever markers it is moved along. -/
theorem shift (ordered : tableau.Ordered kinds inside) {markers : Markers}
    (proper : markers.marker.id ≠ 0 → markers.marker.Proper kinds)
    (proper_other : markers.other.id ≠ 0 → markers.other.Proper kinds) (amount : α) :
    (tableau.shift markers amount).Ordered kinds inside := by
  rcases tableau.shift_cases markers amount with ⟨basic, moved⟩ | ⟨basic, moved⟩ | ⟨_, moved⟩
  · rw [moved]
    exact ordered.raise basic proper _
  · rw [moved]
    exact ordered.raise basic proper_other _
  · rw [moved]
    exact ordered.advance _ _

end Ordered

end Tableau

end SoftSimplex
