import SoftSimplex.Proofs.Tableau.Phase
import SoftSimplex.Proofs.Tableau.Shift

/-!
# Arranged tableaus

Whatever the arithmetic does, basic symbols and the symbols that forms are written in stay apart,
and no symbol appears that was not there before. A tableau is arranged within a range of numbers if
all its symbols are proper, lie in the range, and none that has a row occurs in a form. Taking a row
out narrows the range by its symbol, and giving a symbol a row needs a tableau arranged within a
range without it.
-/

namespace SoftSimplex

namespace Candidate

variable {α : Type}

/-- The rule keeps the best so far or takes the new candidate. -/
def Picks (keep : Option (Candidate α) → Candidate α → Option (Candidate α)) : Prop :=
  ∀ best candidate, keep best candidate = best ∨ keep best candidate = some candidate

theorem Picks.mem_of_foldl {keep : Option (Candidate α) → Candidate α → Option (Candidate α)}
    (picks : Picks keep) {candidates : List (Candidate α)} {start : Option (Candidate α)}
    {chosen : Candidate α} (folded : candidates.foldl keep start = some chosen) :
    start = some chosen ∨ chosen ∈ candidates := by
  induction candidates generalizing start with
  | nil => exact Or.inl folded
  | cons candidate rest inductionHypothesis =>
      rcases inductionHypothesis folded with kept | inside
      · rcases picks start candidate with same | taken
        · exact Or.inl (same.symm.trans kept)
        · obtain rfl := Option.some.inj (taken.symm.trans kept)
          exact Or.inr List.mem_cons_self
      · exact Or.inr (List.mem_cons_of_mem _ inside)

/-- What is chosen from nothing is one of the candidates. -/
theorem Picks.mem {keep : Option (Candidate α) → Candidate α → Option (Candidate α)}
    (picks : Picks keep) {candidates : List (Candidate α)} {chosen : Candidate α}
    (folded : candidates.foldl keep none = some chosen) : chosen ∈ candidates :=
  (picks.mem_of_foldl folded).resolve_left (Option.some_ne_none chosen).symm

variable [Scalar α]

theorem picks_smaller : Picks (smaller : Option (Candidate α) → _) := by
  intro best candidate
  unfold smaller
  cases best with
  | none => exact (ite_eq_or_eq _ _ _).symm
  | some current => exact (ite_eq_or_eq _ _ _).symm

theorem picks_smallerOrOlder : Picks (smallerOrOlder : Option (Candidate α) → _) := by
  intro best candidate
  unfold smallerOrOlder
  cases best with
  | none => exact (ite_eq_or_eq _ _ _).symm
  | some current => exact (ite_eq_or_eq _ _ _).symm

end Candidate

namespace Tableau

variable {α : Type} [Scalar α] {tableau : Tableau α}

/-- The row that leaves is one of the tableau's that mention the entering symbol. -/
theorem exists_row_of_leaving? {entering leaving : Symbol}
    (chosen : tableau.leaving? entering = some leaving) :
    ∃ form coefficient, (leaving, form) ∈ tableau.equations ∧
      form.coefficient? entering = some coefficient := by
  obtain ⟨best, is_best, rfl⟩ := Option.map_eq_some_iff.mp chosen
  obtain ⟨row, member, candidate⟩ :=
    List.mem_filterMap.mp (Candidate.picks_smallerOrOlder.mem is_best)
  obtain ⟨coefficient, found, accepted⟩ := Option.bind_eq_some_iff.mp candidate
  split at accepted
  · exact absurd accepted.symm (Option.some_ne_none best)
  · rw [← Option.some.inj accepted]
    exact ⟨row.2, coefficient, member, found⟩

/-- The symbol that lifts a row occurs in it. -/
theorem exists_term_of_lifting? {form : LinearForm α} {entering : Symbol}
    (chosen : tableau.lifting? form = some entering) :
    ∃ coefficient, (entering, coefficient) ∈ form.terms := by
  obtain ⟨best, is_best, rfl⟩ := Option.map_eq_some_iff.mp chosen
  obtain ⟨term, member, candidate⟩ :=
    List.mem_filterMap.mp (Candidate.picks_smaller.mem is_best)
  dsimp only at candidate
  split at candidate
  · exact absurd candidate.symm (Option.some_ne_none best)
  · rw [← Option.some.inj candidate]
    exact ⟨term.2, member⟩

theorem exists_row_of_markerBounds {marker : Symbol} {falling : Bool} {best : Candidate α}
    (chosen : (tableau.markerBounds marker falling).foldl Candidate.smaller none = some best) :
    ∃ form coefficient, (best.symbol, form) ∈ tableau.equations ∧
      form.coefficient? marker = some coefficient := by
  obtain ⟨row, member, candidate⟩ :=
    List.mem_filterMap.mp (Candidate.picks_smaller.mem chosen)
  obtain ⟨coefficient, found, accepted⟩ := Option.bind_eq_some_iff.mp candidate
  split at accepted
  · exact absurd accepted.symm (Option.some_ne_none best)
  · split at accepted
    · rw [← Option.some.inj accepted]
      exact ⟨row.2, coefficient, member, found⟩
    · rw [← Option.some.inj accepted]
      exact ⟨row.2, coefficient, member, found⟩

/-- The row that is given up for a marker is one of the tableau's that mention it. -/
theorem exists_row_of_markerLeaving? {marker leaving : Symbol}
    (chosen : tableau.markerLeaving? marker = some leaving) :
    ∃ form coefficient, (leaving, form) ∈ tableau.equations ∧
      form.coefficient? marker = some coefficient := by
  rcases markerLeaving?_cases chosen with
    ⟨best, falls, rfl⟩ | ⟨_, ⟨best, rises, rfl⟩ | ⟨_, row, member, rfl, _, mentioned⟩⟩
  · exact exists_row_of_markerBounds falls
  · exact exists_row_of_markerBounds rises
  · rw [LinearForm.mentions_eq_isSome] at mentioned
    obtain ⟨coefficient, found⟩ := Option.isSome_iff_exists.mp mentioned
    exact ⟨row.2, coefficient, member, found⟩

/-! ## Arranged tableaus -/

variable {kinds : Nat → Symbol.Kind} {inside : Nat → Prop} {other : Tableau α}

/-- The symbol has no row and lies in a range of numbers. -/
def FreeWithin (kinds : Nat → Symbol.Kind) (inside : Nat → Prop) (tableau : Tableau α)
    (symbol : Symbol) : Prop :=
  tableau.Free kinds symbol ∧ inside symbol.id

/-- All symbols of the tableau are proper and lie in a range of numbers, and the rows and the
objective are written in symbols without a row. -/
structure Arranged (kinds : Nat → Symbol.Kind) (inside : Nat → Prop) (tableau : Tableau α) :
    Prop where
  basic : ∀ row ∈ tableau.equations, row.1.Proper kinds ∧ inside row.1.id
  written : ∀ row ∈ tableau.equations, row.2.Over (tableau.FreeWithin kinds inside)
  objective : tableau.objective.Over (tableau.FreeWithin kinds inside)

omit [Scalar α] in
/-- A symbol without a row is none of the basic ones. -/
theorem Free.id_ne {symbol basic : Symbol} (free : tableau.Free kinds symbol)
    {form : LinearForm α} (found : tableau.form? basic = some form) : symbol.id ≠ basic.id := by
  intro same
  have absent := free.2
  rw [tableau.form?_congr same, found] at absent
  exact Option.some_ne_none form absent

namespace Arranged

variable {symbol entering leaving : Symbol} {form goal definition : LinearForm α}

theorem empty (kinds : Nat → Symbol.Kind) (inside : Nat → Prop) :
    (Tableau.empty : Tableau α).Arranged kinds inside := by
  constructor
  · exact fun _ member => absurd member List.not_mem_nil
  · exact fun _ member => absurd member List.not_mem_nil
  · exact LinearForm.Over.ofConstant 0

omit [Scalar α] in
theorem mono (arranged : tableau.Arranged kinds inside) {wider : Nat → Prop}
    (within : ∀ id, inside id → wider id) : tableau.Arranged kinds wider := by
  constructor
  · exact fun row member => (arranged.basic row member).imp_right (within _)
  · exact fun row member => (arranged.written row member).mono fun _ => And.imp_right (within _)
  · exact arranged.objective.mono fun _ => And.imp_right (within _)

omit [Scalar α] in
/-- A tableau whose rows are trimmed rows of an arranged one, and its objective likewise. -/
theorem of_rows (arranged : tableau.Arranged kinds inside) {narrower : Nat → Prop}
    (rows : ∀ row ∈ other.equations, ∃ before ∈ tableau.equations, before.1 = row.1 ∧
      narrower row.1.id ∧ row.2.Over (tableau.FreeWithin kinds narrower))
    (objective : other.objective.Over (tableau.FreeWithin kinds narrower)) :
    other.Arranged kinds narrower := by
  have still_free : ∀ symbol, tableau.FreeWithin kinds narrower symbol →
      other.FreeWithin kinds narrower symbol := by
    intro symbol free
    refine ⟨⟨free.1.1, (other.form?_eq_none_iff symbol).mpr fun row member => ?_⟩, free.2⟩
    obtain ⟨before, was, named, _⟩ := rows row member
    rw [← named]
    exact (tableau.form?_eq_none_iff symbol).mp free.1.2 before was
  constructor
  · intro row member
    obtain ⟨before, was, named, within, _⟩ := rows row member
    rw [← named]
    exact ⟨(arranged.basic before was).1, named ▸ within⟩
  · intro row member
    obtain ⟨before, was, named, _, spanned⟩ := rows row member
    exact spanned.mono still_free
  · exact objective.mono still_free

omit [Scalar α] in
/-- Only the equations and the objective count. -/
theorem alike (arranged : tableau.Arranged kinds inside) (alike : tableau.Alike other) :
    other.Arranged kinds inside := by
  apply arranged.of_rows
  · intro row member
    rw [alike.equations] at member
    exact ⟨row, member, rfl, (arranged.basic row member).2, arranged.written row member⟩
  · rw [alike.objective]
    exact arranged.objective

omit [Scalar α] in
theorem mem_equations (arranged : tableau.Arranged kinds inside) (proper : symbol.Proper kinds)
    (found : tableau.form? symbol = some form) : (symbol, form) ∈ tableau.equations := by
  obtain ⟨row, member, same, rfl⟩ := (tableau.form?_eq_some_iff symbol form).mp found
  rw [← (arranged.basic row member).1.eq_of_id_eq proper same]
  exact member

omit [Scalar α] in
theorem written_of_form? (arranged : tableau.Arranged kinds inside)
    (found : tableau.form? symbol = some form) :
    form.Over (tableau.FreeWithin kinds inside) := by
  obtain ⟨row, member, _, rfl⟩ := (tableau.form?_eq_some_iff symbol form).mp found
  exact arranged.written row member

omit [Scalar α] in
theorem freeWithin_discard (free : tableau.FreeWithin kinds inside symbol) (leaving : Symbol) :
    (tableau.discard leaving).FreeWithin kinds inside symbol := by
  refine ⟨⟨free.1.1, ?_⟩, free.2⟩
  rw [form?_discard, free.1.2, ite_self]

omit [Scalar α] in
/-- Taking a row out narrows the range by its symbol. -/
theorem discard (arranged : tableau.Arranged kinds inside)
    (found : tableau.form? leaving = some form) :
    (tableau.discard leaving).Arranged kinds fun id => inside id ∧ id ≠ leaving.id := by
  have apart : ∀ symbol, tableau.FreeWithin kinds inside symbol →
      tableau.FreeWithin kinds (fun id => inside id ∧ id ≠ leaving.id) symbol :=
    fun symbol free => ⟨free.1, free.2, free.1.id_ne found⟩
  apply arranged.of_rows
  · intro row member
    obtain ⟨before, elsewhere⟩ := (tableau.mem_equations_discard_iff leaving row).mp member
    exact ⟨row, before, rfl, ⟨(arranged.basic row before).2, elsewhere⟩,
      (arranged.written row before).mono apart⟩
  · rw [objective_discard]
    exact arranged.objective.mono apart

omit [Scalar α] in
/-- The symbol whose row was taken out is free. -/
theorem free_leaving (arranged : tableau.Arranged kinds inside)
    (member : (leaving, form) ∈ tableau.equations) :
    (tableau.discard leaving).FreeWithin kinds inside leaving := by
  obtain ⟨proper, within⟩ := arranged.basic _ member
  refine ⟨⟨proper, ?_⟩, within⟩
  rw [form?_discard, if_pos rfl]

theorem freeWithin_eliminate_iff (definition : LinearForm α) :
    (tableau.eliminate entering definition).FreeWithin kinds inside symbol ↔
      tableau.FreeWithin kinds inside symbol := by
  unfold FreeWithin Free
  rw [form?_eliminate, Option.map_eq_none_iff]

/-- Replacing a free symbol narrows the range by it. -/
theorem eliminate (arranged : tableau.Arranged kinds inside)
    (free : tableau.form? entering = none)
    (spanned : definition.Over
      (tableau.FreeWithin kinds fun id => inside id ∧ id ≠ entering.id)) :
    (tableau.eliminate entering definition).Arranged kinds
      fun id => inside id ∧ id ≠ entering.id := by
  have replaced : ∀ form : LinearForm α, form.Over (tableau.FreeWithin kinds inside) →
      (form.substitute entering definition).Over
        (tableau.FreeWithin kinds fun id => inside id ∧ id ≠ entering.id) := fun form written =>
    LinearForm.Over.substitute (written.mono fun _ free apart => ⟨free.1, free.2, apart⟩) spanned
  apply arranged.of_rows
  · intro row member
    rw [equations_eliminate] at member
    obtain ⟨before, was, rfl⟩ := List.mem_map.mp member
    have elsewhere := (tableau.form?_eq_none_iff entering).mp free before was
    exact ⟨before, was, rfl, ⟨(arranged.basic before was).2, elsewhere⟩,
      replaced _ (arranged.written before was)⟩
  · exact replaced _ arranged.objective

omit [Scalar α] in
/-- What is free and not the symbol stays free when the symbol is given a row. -/
theorem freeWithin_put {other : Symbol}
    (free : tableau.FreeWithin kinds (fun id => inside id ∧ id ≠ symbol.id) other) :
    (tableau.put symbol form).FreeWithin kinds inside other := by
  refine ⟨⟨free.1.1, ?_⟩, free.2.1⟩
  rw [form?_put, if_neg free.2.2]
  exact free.1.2

omit [Scalar α] in
/-- A symbol that does not occur can be given a row. -/
theorem put (arranged : tableau.Arranged kinds fun id => inside id ∧ id ≠ symbol.id)
    (proper : symbol.Proper kinds) (within : inside symbol.id)
    (spanned : form.Over (tableau.FreeWithin kinds fun id => inside id ∧ id ≠ symbol.id)) :
    (tableau.put symbol form).Arranged kinds inside := by
  constructor
  · intro row member
    rcases mem_equations_put member with ⟨before, _⟩ | ⟨same, _, is_symbol | ⟨earlier, before⟩⟩
    · exact (arranged.basic row before).imp_right And.left
    · rw [is_symbol]
      exact ⟨proper, within⟩
    · exact absurd same (arranged.basic _ before).2.2
  · intro row member
    rcases mem_equations_put member with ⟨before, _⟩ | ⟨_, is_form, _⟩
    · exact (arranged.written row before).mono fun _ => freeWithin_put
    · rw [is_form]
      exact spanned.mono fun _ => freeWithin_put
  · exact arranged.objective.mono fun _ => freeWithin_put

/-- The solved form is written in free symbols other than the one it is solved for. -/
theorem over_isolate (spanned : form.Over (tableau.FreeWithin kinds inside))
    (freed : leaving.isNull = false →
      tableau.FreeWithin kinds inside leaving ∧ leaving.id ≠ entering.id) :
    (form.isolate entering leaving).Over
      (tableau.FreeWithin kinds fun id => inside id ∧ id ≠ entering.id) := by
  apply LinearForm.Over.isolate
  · exact spanned.mono fun _ free apart => ⟨free.1, free.2, apart⟩
  · exact fun proper => ⟨(freed proper).1.1, (freed proper).1.2, (freed proper).2⟩

/-- Making a free symbol basic. -/
theorem pivot (arranged : tableau.Arranged kinds inside)
    (free : tableau.FreeWithin kinds inside entering)
    (spanned : form.Over (tableau.FreeWithin kinds inside))
    (freed : leaving.isNull = false →
      tableau.FreeWithin kinds inside leaving ∧ leaving.id ≠ entering.id) :
    (tableau.pivot form entering leaving).Arranged kinds inside := by
  have solved := over_isolate spanned freed
  apply (arranged.eliminate free.1.2 solved).put free.1.1 free.2
  exact solved.mono fun _ => (freeWithin_eliminate_iff _).mpr

/-- A form keeps being written in free symbols when one of them is made basic. -/
theorem over_substitute (spanned : form.Over (tableau.FreeWithin kinds inside))
    (freed : leaving.isNull = false →
      tableau.FreeWithin kinds inside leaving ∧ leaving.id ≠ entering.id)
    (written : goal.Over (tableau.FreeWithin kinds inside)) :
    (goal.substitute entering (form.isolate entering leaving)).Over
      ((tableau.pivot form entering leaving).FreeWithin kinds inside) := by
  have replaced : (goal.substitute entering (form.isolate entering leaving)).Over
      (tableau.FreeWithin kinds fun id => inside id ∧ id ≠ entering.id) :=
    LinearForm.Over.substitute (written.mono fun _ free apart => ⟨free.1, free.2, apart⟩)
      (over_isolate spanned freed)
  intro term member
  obtain ⟨⟨proper, absent⟩, within, apart⟩ := replaced term member
  refine ⟨⟨proper, ?_⟩, within⟩
  rw [form?_pivot, if_neg apart, absent, Option.map_none]

section Exchange

variable (arranged : tableau.Arranged kinds inside)
  (member : (leaving, form) ∈ tableau.equations)
  (free : tableau.FreeWithin kinds inside entering)

include arranged member free

omit [Scalar α] in
/-- What a basic symbol and a free one are to each other once the row has been taken out. -/
theorem freed_leaving : leaving.isNull = false →
    (tableau.discard leaving).FreeWithin kinds inside leaving ∧ leaving.id ≠ entering.id :=
  fun _ => ⟨arranged.free_leaving member, (free.1.id_ne (form?_of_mem member)).symm⟩

/-- Exchanging a basic symbol for a free one. -/
theorem exchange :
    ((tableau.discard leaving).pivot form entering leaving).Arranged kinds inside := by
  apply ((arranged.discard (form?_of_mem member)).mono fun _ => And.left).pivot
  · exact freeWithin_discard free leaving
  · exact (arranged.written _ member).mono fun _ free => freeWithin_discard free leaving
  · exact arranged.freed_leaving member free

theorem over_exchange (written : goal.Over (tableau.FreeWithin kinds inside)) :
    (goal.substitute entering (form.isolate entering leaving)).Over
      (((tableau.discard leaving).pivot form entering leaving).FreeWithin kinds inside) := by
  apply over_substitute
  · exact (arranged.written _ member).mono fun _ free => freeWithin_discard free leaving
  · exact arranged.freed_leaving member free
  · exact written.mono fun _ free => freeWithin_discard free leaving

end Exchange

end Arranged

end Tableau

end SoftSimplex
