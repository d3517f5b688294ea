import SoftSimplex.Proofs.Form.Support
import SoftSimplex.Tableau.Markers

/-!
# The rows of a tableau

What every operation on a tableau does to its equations, for any number type. Elimination
substitutes in every row, a pivot adds the solved row to that, and the other operations touch one
row or only the terms. The agenda does not matter to the equations.
-/

namespace SoftSimplex.Tableau

variable {α : Type}

theorem form?_eq_some_iff (tableau : Tableau α) (symbol : Symbol) (form : LinearForm α) :
    tableau.form? symbol = some form ↔
      ∃ row ∈ tableau.equations, row.1.id = symbol.id ∧ row.2 = form := by
  unfold form? equations
  rw [Option.map_eq_some_iff]
  constructor
  · rintro ⟨row, found, rfl⟩
    obtain ⟨filed, member, same, rfl⟩ := (tableau.rows.get?_eq_some_iff symbol row).mp found
    exact ⟨_, List.mem_map_of_mem member, same, rfl⟩
  · rintro ⟨_, member, same, rfl⟩
    obtain ⟨filed, inside, rfl⟩ := List.mem_map.mp member
    exact ⟨filed.2, (tableau.rows.get?_eq_some_iff symbol filed.2).mpr
      ⟨filed, inside, same, rfl⟩, rfl⟩

theorem form?_of_mem {tableau : Tableau α} {row : Symbol × LinearForm α}
    (member : row ∈ tableau.equations) : tableau.form? row.1 = some row.2 :=
  (tableau.form?_eq_some_iff row.1 row.2).mpr ⟨row, member, rfl, rfl⟩

theorem form?_eq_none_iff (tableau : Tableau α) (symbol : Symbol) :
    tableau.form? symbol = none ↔ ∀ row ∈ tableau.equations, row.1.id ≠ symbol.id := by
  constructor
  · intro absent row member same
    have found := (tableau.form?_eq_some_iff symbol row.2).mpr ⟨row, member, same, rfl⟩
    rw [absent] at found
    exact Option.some_ne_none _ found.symm
  · intro absent
    cases found : tableau.form? symbol with
    | none => rfl
    | some form =>
        obtain ⟨row, member, same, _⟩ := (tableau.form?_eq_some_iff symbol form).mp found
        exact absurd same (absent row member)

theorem form?_congr (tableau : Tableau α) {symbol other : Symbol} (same : symbol.id = other.id) :
    tableau.form? symbol = tableau.form? other := by
  unfold form?
  rw [tableau.rows.get?_congr same]

/-- A symbol has one row only. -/
theorem form_eq_of_form? {tableau : Tableau α} {symbol : Symbol} {form form' : LinearForm α}
    (member : (symbol, form) ∈ tableau.equations) (found : tableau.form? symbol = some form') :
    form = form' :=
  Option.some.inj ((form?_of_mem member).symm.trans found)

/-- So have two symbols that bear the same number. -/
theorem form_eq_of_id_eq {tableau : Tableau α} {row other : Symbol × LinearForm α}
    (member : row ∈ tableau.equations) (member' : other ∈ tableau.equations)
    (same : row.1.id = other.1.id) : row.2 = other.2 :=
  form_eq_of_form? member ((tableau.form?_congr same).trans (form?_of_mem member'))

theorem isBasic_eq_isSome (tableau : Tableau α) (symbol : Symbol) :
    tableau.isBasic symbol = (tableau.form? symbol).isSome := by
  rw [isBasic, tableau.rows.contains_eq_isSome, form?, Option.isSome_map]

theorem isBasic_eq_false_iff (tableau : Tableau α) (symbol : Symbol) :
    tableau.isBasic symbol = false ↔ tableau.form? symbol = none := by
  rw [isBasic_eq_isSome, Option.isSome_eq_false_iff, Option.isNone_iff_eq_none]

/-- Taking a row out gives its form and leaves the tableau without it. -/
theorem take?_eq (tableau : Tableau α) (symbol : Symbol) :
    tableau.take? symbol =
      (tableau.form? symbol).map fun form => (form, tableau.discard symbol) := by
  unfold discard take? form?
  cases tableau.rows.get? symbol with
  | none => rfl
  | some row => rfl

theorem take?_eq_some_iff (tableau : Tableau α) (symbol : Symbol) (form : LinearForm α)
    (rest : Tableau α) :
    tableau.take? symbol = some (form, rest) ↔
      tableau.form? symbol = some form ∧ rest = tableau.discard symbol := by
  rw [take?_eq, Option.map_eq_some_iff]
  constructor
  · rintro ⟨found, present, equal⟩
    obtain ⟨rfl, rfl⟩ := Prod.mk.inj equal
    exact ⟨present, rfl⟩
  · rintro ⟨present, rfl⟩
    exact ⟨form, present, rfl⟩

theorem equations_discard (tableau : Tableau α) (symbol : Symbol) :
    (tableau.discard symbol).equations =
      tableau.equations.filter fun row => row.1.id != symbol.id := by
  unfold discard take?
  cases found : tableau.rows.get? symbol with
  | none =>
      have apart := (tableau.rows.get?_eq_none_iff symbol).mp found
      refine (List.filter_eq_self.mpr fun row member => ?_).symm
      obtain ⟨filed, inside, rfl⟩ := List.mem_map.mp member
      simpa using apart filed inside
  | some row =>
      change (tableau.rows.erase symbol).entries.map _ = _
      rw [SlotTable.entries_erase, equations, List.filter_map]
      rfl

theorem mem_equations_discard_iff (tableau : Tableau α) (symbol : Symbol)
    (row : Symbol × LinearForm α) :
    row ∈ (tableau.discard symbol).equations ↔
      row ∈ tableau.equations ∧ row.1.id ≠ symbol.id := by
  rw [equations_discard, List.mem_filter, bne_iff_ne]

/-- A row and all rows that are left when it is taken out. -/
theorem equations_perm_cons_discard {tableau : Tableau α} {symbol : Symbol} {form : LinearForm α}
    (member : (symbol, form) ∈ tableau.equations) :
    tableau.equations.Perm ((symbol, form) :: (tableau.discard symbol).equations) := by
  have distinct : Layout.Distinct tableau.equations := List.pairwise_map.mpr tableau.rows.distinct
  rw [equations_discard]
  exact SlotTable.perm_cons_filter distinct member

theorem form?_discard (tableau : Tableau α) (symbol other : Symbol) :
    (tableau.discard symbol).form? other =
      if other.id = symbol.id then none else tableau.form? other := by
  unfold discard take? form?
  cases found : tableau.rows.get? symbol with
  | none =>
      split
      · rename_i same
        change (tableau.rows.get? other).map Row.form = none
        rw [tableau.rows.get?_congr same, found]
        rfl
      · rfl
  | some row =>
      change ((tableau.rows.erase symbol).get? other).map Row.form = _
      rw [SlotTable.get?_erase]
      split <;> rfl

@[simp]
theorem objective_discard (tableau : Tableau α) (symbol : Symbol) :
    (tableau.discard symbol).objective = tableau.objective := by
  unfold discard take?
  cases tableau.rows.get? symbol <;> rfl

theorem form?_put (tableau : Tableau α) (symbol : Symbol) (form : LinearForm α)
    (other : Symbol) :
    (tableau.put symbol form).form? other =
      if other.id = symbol.id then some form else tableau.form? other := by
  unfold put form?
  rw [SlotTable.get?_insert]
  split <;> rfl

@[simp]
theorem objective_put (tableau : Tableau α) (symbol : Symbol) (form : LinearForm α) :
    (tableau.put symbol form).objective = tableau.objective := rfl

/-- A row of the tableau with a row more was there before, or is the new one. It lies under the
symbol that the row had first. -/
theorem mem_equations_put {tableau : Tableau α} {symbol : Symbol} {form : LinearForm α}
    {row : Symbol × LinearForm α} (member : row ∈ (tableau.put symbol form).equations) :
    (row ∈ tableau.equations ∧ row.1.id ≠ symbol.id) ∨
      (row.1.id = symbol.id ∧ row.2 = form ∧
        (row.1 = symbol ∨ ∃ earlier, (row.1, earlier) ∈ tableau.equations)) := by
  obtain ⟨filed, inside, rfl⟩ := List.mem_map.mp member
  rcases SlotTable.mem_entries_insert inside with ⟨before, apart⟩ | ⟨same, is_row, origin⟩
  · exact Or.inl ⟨List.mem_map_of_mem before, apart⟩
  · refine Or.inr ⟨same, by rw [is_row], ?_⟩
    rcases origin with is_symbol | ⟨earlier, before⟩
    · exact Or.inl is_symbol
    · exact Or.inr ⟨earlier.form, List.mem_map.mpr ⟨_, before, rfl⟩⟩

/-- A pass changes the forms of rows as its action does. -/
theorem forms_passEntries {σ : Type} {action : σ → Symbol → Row α → Row α × σ}
    (change : Symbol → LinearForm α → LinearForm α)
    (changes : ∀ state basic row, (action state basic row).1.form = change basic row.form)
    (entries : List (Symbol × Row α)) (start : σ) :
    (passEntries action entries start).1.map (fun entry => (entry.1, entry.2.form)) =
      entries.map fun entry => (entry.1, change entry.1 entry.2.form) := by
  induction entries generalizing start with
  | nil => rfl
  | cons first rest inductionHypothesis =>
      simp only [passEntries, List.map_cons, changes, inductionHypothesis]

/-- If every row of one tableau is a changed row of another, so are the forms found there. -/
theorem form?_of_equations_eq {tableau other : Tableau α}
    (change : Symbol → LinearForm α → LinearForm α)
    (changed : other.equations = tableau.equations.map fun row => (row.1, change row.1 row.2))
    (congruent : ∀ symbol symbol' form, symbol.id = symbol'.id →
      change symbol form = change symbol' form) (symbol : Symbol) :
    other.form? symbol = (tableau.form? symbol).map (change symbol) := by
  apply Option.ext
  intro form
  rw [form?_eq_some_iff, changed, Option.map_eq_some_iff]
  constructor
  · rintro ⟨_, member, same, rfl⟩
    obtain ⟨row, inside, rfl⟩ := List.mem_map.mp member
    exact ⟨row.2, (tableau.form?_eq_some_iff symbol row.2).mpr ⟨row, inside, same, rfl⟩,
      congruent _ _ _ same.symm⟩
  · rintro ⟨before, found, rfl⟩
    obtain ⟨row, inside, same, rfl⟩ := (tableau.form?_eq_some_iff symbol before).mp found
    exact ⟨_, List.mem_map_of_mem inside, same, congruent _ _ _ same⟩

theorem equations_forget (tableau : Tableau α) (symbol : Symbol) :
    (tableau.forget symbol).equations = tableau.equations.map fun row =>
      (row.1, row.2.without symbol) := by
  unfold equations forget
  rw [SlotTable.entries_map, List.map_map, List.map_map]
  rfl

@[simp]
theorem objective_forget (tableau : Tableau α) (symbol : Symbol) :
    (tableau.forget symbol).objective = tableau.objective.without symbol := rfl

variable [Scalar α]

theorem value_of_form? {tableau : Tableau α} {symbol : Symbol} {form : LinearForm α}
    (found : tableau.form? symbol = some form) : tableau.value symbol = form.constant := by
  simp [value, found]

theorem value_of_not_basic {tableau : Tableau α} {symbol : Symbol}
    (absent : tableau.form? symbol = none) : tableau.value symbol = 0 := by
  simp [value, absent]

@[simp]
theorem form_queue (agenda : Agenda) (symbol : Symbol) (row : Row α) :
    (agenda.queue symbol row).1.form = row.form := by
  unfold Agenda.queue
  split <;> rfl

@[simp]
theorem form_note (agenda : Agenda) (symbol : Symbol) (row : Row α) :
    (agenda.note symbol row).1.form = row.form := by
  unfold Agenda.note
  split
  · rfl
  · exact form_queue agenda symbol row

/-- Elimination substitutes in every row. -/
theorem equations_eliminate (tableau : Tableau α) (symbol : Symbol)
    (definition : LinearForm α) :
    (tableau.eliminate symbol definition).equations = tableau.equations.map fun row =>
      (row.1, row.2.substitute symbol definition) := by
  have walked := congrArg Prod.fst (tableau.rows.pass_eq tableau.agenda
    fun agenda basic row =>
      if row.form.mentions symbol then
        agenda.note basic { row with form := row.form.substitute symbol definition }
      else (row, agenda))
  unfold equations eliminate
  rw [List.map_map]
  refine (congrArg (List.map _) walked).trans ?_
  refine forms_passEntries (fun _ form => form.substitute symbol definition) ?_
    tableau.rows.entries tableau.agenda
  intro agenda basic row
  split
  · rw [form_note]
  · rename_i unmentioned
    rw [LinearForm.substitute_of_not_mentions (by simpa using unmentioned)]

theorem form?_eliminate (tableau : Tableau α) (symbol : Symbol) (definition : LinearForm α)
    (other : Symbol) :
    (tableau.eliminate symbol definition).form? other =
      (tableau.form? other).map fun form => form.substitute symbol definition :=
  form?_of_equations_eq (fun _ form => form.substitute symbol definition)
    (tableau.equations_eliminate symbol definition) (fun _ _ _ _ => rfl) other

@[simp]
theorem objective_eliminate (tableau : Tableau α) (symbol : Symbol)
    (definition : LinearForm α) :
    (tableau.eliminate symbol definition).objective =
      tableau.objective.substitute symbol definition := rfl

theorem form?_pivot (tableau : Tableau α) (form : LinearForm α) (entering leaving other : Symbol) :
    (tableau.pivot form entering leaving).form? other =
      if other.id = entering.id then some (form.isolate entering leaving)
      else (tableau.form? other).map fun row =>
        row.substitute entering (form.isolate entering leaving) := by
  rw [pivot, form?_put]
  split
  · rfl
  · exact tableau.form?_eliminate _ _ _

@[simp]
theorem objective_pivot (tableau : Tableau α) (form : LinearForm α)
    (entering leaving : Symbol) :
    (tableau.pivot form entering leaving).objective =
      tableau.objective.substitute entering (form.isolate entering leaving) := rfl

/-- After a pivot there are the solved row and all others, with the symbol replaced. -/
theorem equations_pivot_perm {tableau : Tableau α} {entering : Symbol}
    (absent : tableau.form? entering = none) (form : LinearForm α) (leaving : Symbol) :
    (tableau.pivot form entering leaving).equations.Perm
      ((entering, form.isolate entering leaving) :: tableau.equations.map fun row =>
        (row.1, row.2.substitute entering (form.isolate entering leaving))) := by
  have unfiled : (tableau.eliminate entering (form.isolate entering leaving)).rows.get? entering =
      none := by
    rw [← Option.map_eq_none_iff]
    exact (tableau.form?_eliminate entering _ entering).trans (Option.map_eq_none_iff.mpr absent)
  rw [← equations_eliminate]
  exact (SlotTable.entries_insert_of_absent _ entering _ unfiled).map _

/-- A row after a pivot is the solved row or one of the others, with the symbol replaced. -/
theorem mem_equations_pivot {tableau : Tableau α} {form : LinearForm α}
    {entering leaving : Symbol} {row : Symbol × LinearForm α}
    (absent : tableau.form? entering = none)
    (member : row ∈ (tableau.pivot form entering leaving).equations) :
    row = (entering, form.isolate entering leaving) ∨
      ∃ before ∈ tableau.equations,
        row = (before.1, before.2.substitute entering (form.isolate entering leaving)) := by
  rcases List.mem_cons.mp ((equations_pivot_perm absent form leaving).mem_iff.mp member) with
    solved | replaced
  · exact Or.inl solved
  · obtain ⟨before, inside, rfl⟩ := List.mem_map.mp replaced
    exact Or.inr ⟨before, inside, rfl⟩

end SoftSimplex.Tableau
