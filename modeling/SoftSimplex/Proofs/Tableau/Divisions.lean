import SoftSimplex.Proofs.Form.Grain
import SoftSimplex.Proofs.Tableau.OrderedPhases

/-!
# Divisions

A pivot solves an equation for a symbol, and divides by the coefficient that the symbol has in it.
The rules that choose a row and a symbol see to it that the symbol occurs in the row, and in a
tableau that is in order no row mentions its own basic symbol. What is left is the size of the
coefficient: if all coefficients of rows belong to a class, so does the divisor, and they keep to
the class as long as they are divided by mild numbers only.

Prices are sums and are never divided, so every coefficient of the objective counts.
-/

namespace SoftSimplex

variable {α : Type} [Scalar α] {fine mild : α → Prop} {kinds : Nat → Symbol.Kind}
  {inside : Nat → Prop}

/-- An equation that is solved for the entering symbol: the form equals the leaving symbol, or it
vanishes if there is none. -/
structure Division (α : Type) where
  form : LinearForm α
  entering : Symbol
  leaving : Symbol

namespace Division

/-- The coefficient that the equation is divided by. -/
def divisor? (division : Division α) : Option α :=
  division.form.coefficient? division.entering

/-- The solved form, which the entering symbol is replaced by. -/
def definition (division : Division α) : LinearForm α :=
  division.form.isolate division.entering division.leaving

/-- The entering symbol is not the leaving one, and it occurs with a coefficient of the class. -/
structure Sound (fine : α → Prop) (division : Division α) : Prop where
  apart : division.entering ≠ division.leaving
  occurs : ∃ divisor, division.divisor? = some divisor ∧ fine divisor

/-- If there is a divisor, it belongs to the class. -/
def Mild (mild : α → Prop) (division : Division α) : Prop :=
  ∀ divisor, division.divisor? = some divisor → mild divisor

instance [DecidablePred fine] (division : Division α) : Decidable (division.Sound fine) :=
  decidable_of_iff
    (division.entering ≠ division.leaving ∧ ∃ divisor ∈ division.divisor?, fine divisor)
    ⟨fun both => ⟨both.1, both.2⟩, fun sound => ⟨sound.apart, sound.occurs⟩⟩

instance [DecidablePred mild] (division : Division α) : Decidable (division.Mild mild) :=
  inferInstanceAs (Decidable (∀ divisor ∈ division.divisor?, mild divisor))

omit [Scalar α] in
theorem Sound.of_ids {division : Division α} (apart : division.entering.id ≠ division.leaving.id)
    {divisor : α} (found : division.divisor? = some divisor) (is_fine : fine divisor) :
    division.Sound fine :=
  ⟨fun same => apart (congrArg Symbol.id same), divisor, found, is_fine⟩

end Division

namespace Tableau

variable {tableau other : Tableau α} {form definition : LinearForm α}
  {symbol entering leaving marker : Symbol}

/-- All coefficients of rows belong to a class, and those of the objective count. -/
structure Grained (fine : α → Prop) (tableau : Tableau α) : Prop where
  rows : ∀ row ∈ tableau.equations, row.2.Grained fine
  objective : tableau.objective.Grained Scalar.Counts

namespace Grained

theorem empty : (Tableau.empty : Tableau α).Grained fine :=
  ⟨fun _ member => absurd member List.not_mem_nil, .ofConstant 0⟩

/-- Rows may go and change their constants. -/
theorem of_rows (grained : tableau.Grained fine)
    (rows : ∀ row ∈ other.equations, ∃ before ∈ tableau.equations, row.2.terms = before.2.terms)
    (objective : other.objective = tableau.objective) : other.Grained fine := by
  constructor
  · intro row member
    obtain ⟨before, was, same⟩ := rows row member
    exact (grained.rows before was).of_terms same
  · rw [objective]
    exact grained.objective

theorem alike (grained : tableau.Grained fine) (alike : tableau.Alike other) :
    other.Grained fine :=
  grained.of_rows (fun row member => ⟨row, alike.equations ▸ member, rfl⟩) alike.objective

theorem with_objective (grained : tableau.Grained fine) {objective : LinearForm α}
    (counts : objective.Grained Scalar.Counts) :
    ({ tableau with objective } : Tableau α).Grained fine :=
  ⟨grained.rows, counts⟩

theorem discard (grained : tableau.Grained fine) (symbol : Symbol) :
    (tableau.discard symbol).Grained fine :=
  grained.of_rows (fun row member =>
    ⟨row, ((tableau.mem_equations_discard_iff symbol row).mp member).1, rfl⟩)
    (tableau.objective_discard symbol)

theorem put (grained : tableau.Grained fine) (symbol : Symbol) (row : form.Grained fine) :
    (tableau.put symbol form).Grained fine := by
  refine ⟨fun entry member => ?_, grained.objective⟩
  rcases mem_equations_put member with ⟨before, _⟩ | ⟨_, is_form, _⟩
  · exact grained.rows entry before
  · rw [is_form]
    exact row

theorem forget (grained : tableau.Grained fine) (symbol : Symbol) :
    (tableau.forget symbol).Grained fine := by
  constructor
  · rw [equations_forget, List.forall_mem_map]
    exact fun row member => (grained.rows row member).without symbol
  · exact grained.objective.without symbol

theorem truncate (grained : tableau.Grained fine) (mark : Nat) :
    (tableau.truncate mark).Grained fine := by
  obtain ⟨objective, rows⟩ := Ordered.equations_foldl_discard
    (tableau.rows.symbols.filter fun symbol => decide (mark < symbol.id)) tableau
  unfold Tableau.truncate
  constructor
  · intro row member
    obtain ⟨entry, trimmed, rfl⟩ := List.mem_map.mp member
    dsimp only at trimmed
    rw [SlotTable.entries_map] at trimmed
    obtain ⟨kept, was, rfl⟩ := List.mem_map.mp trimmed
    obtain ⟨before, _⟩ := rows (kept.1, kept.2.form) (List.mem_map_of_mem was)
    exact (grained.rows _ before).restrict _
  · dsimp only
    rw [objective]
    exact grained.objective.restrict _

/-- Without rows and prices. -/
theorem cleared (tableau : Tableau α) (agenda : Agenda) :
    ({ rows := tableau.rows.clear, objective := tableau.objective.cleared, agenda } :
      Tableau α).Grained fine := by
  refine ⟨fun row member => ?_, .cleared tableau.objective⟩
  rw [equations, tableau.rows.entries_clear] at member
  exact absurd member List.not_mem_nil

theorem shift (grained : tableau.Grained fine) (markers : Markers) (amount : α) :
    (tableau.shift markers amount).Grained fine := by
  have raise : ∀ symbol, tableau.form? symbol ≠ none → ∀ amount,
      (tableau.raise symbol amount).Grained fine := by
    intro symbol basic amount
    apply grained.of_rows
    · intro row member
      rw [equations_raise basic] at member
      obtain ⟨before, was, rfl⟩ := List.mem_map.mp member
      refine ⟨before, was, ?_⟩
      dsimp only
      split <;> rfl
    · exact objective_raise tableau symbol amount
  rcases tableau.shift_cases markers amount with ⟨basic, moved⟩ | ⟨basic, moved⟩ | ⟨_, moved⟩
  · rw [moved]
    exact raise _ basic _
  · rw [moved]
    exact raise _ basic _
  · rw [moved]
    apply grained.of_rows
    · intro row member
      obtain ⟨before, was, _, terms⟩ := Ordered.exists_row_of_advance member
      exact ⟨before, was, terms⟩
    · rfl

theorem plusExpressed (counts : form.Grained Scalar.Counts) (tableau : Tableau α)
    (symbol : Symbol) (amount : α) :
    (tableau.plusExpressed form symbol amount).Grained Scalar.Counts := by
  unfold Tableau.plusExpressed
  split
  · exact counts.plusMultiple (fun _ => id) _ _
  · exact counts.plus (fun _ => id) _ _

/-- The row of a constraint is a sum, which may be turned in the end. -/
theorem rowFor (turned : ∀ number : α, Scalar.Counts number → Scalar.Counts (number * -1))
    (tableau : Tableau α) (expression : LinearForm α) (markers : Markers) :
    (tableau.rowFor expression markers).Grained Scalar.Counts := by
  have expressed : (tableau.express expression).Grained Scalar.Counts :=
    (LinearForm.Grained.ofConstant _).foldl fun term _ _ sum =>
      plusExpressed sum tableau term.1 term.2
  have extended : (markers.extend (tableau.express expression)).Grained Scalar.Counts :=
    (expressed.plus (fun _ => id) _ _).plus (fun _ => id) _ _
  unfold Tableau.rowFor
  dsimp only
  split
  · exact extended.scale turned
  · exact extended

theorem chargeFresh (grained : tableau.Grained fine) (symbols : List Symbol) (amount : α) :
    (tableau.chargeFresh symbols amount).Grained fine :=
  grained.with_objective (grained.objective.foldl fun _ _ _ sum => sum.plus (fun _ => id) _ _)

theorem charge (grained : tableau.Grained fine) (symbols : List Symbol) (amount : α) :
    (tableau.charge symbols amount).Grained fine :=
  grained.with_objective (grained.objective.foldl fun _ _ _ sum =>
    plusExpressed sum tableau _ _)

theorem settleObjective (grained : tableau.Grained fine) :
    tableau.settleObjective.Grained fine := by
  unfold Tableau.settleObjective
  split
  · exact grained.with_objective (grained.objective.of_terms rfl)
  · exact grained

theorem eliminate (counts : ∀ number : α, Scalar.Counts number → fine number)
    (grained : tableau.Grained fine) (symbol : Symbol) (definition : LinearForm α) :
    (tableau.eliminate symbol definition).Grained fine := by
  constructor
  · rw [equations_eliminate, List.forall_mem_map]
    exact fun row member => (grained.rows row member).substitute counts symbol definition
  · exact grained.objective.substitute (fun _ => id) symbol definition

theorem pivot (grain : Scalar.Grain fine mild) (grained : tableau.Grained fine)
    (row : form.Grained fine) (divides : Division.Mild mild ⟨form, entering, leaving⟩) :
    (tableau.pivot form entering leaving).Grained fine :=
  (grained.eliminate grain.counts entering _).put entering (row.isolate grain leaving divides)

end Grained

/-- The equation that the next step of the primal phase solves, unless it halts. -/
def Descent.division? (descent : Descent α) : Option (Division α) := do
  let entering ← descent.goal.entering?
  let leaving ← descent.tableau.leaving? entering
  let (form, _) ← descent.tableau.take? leaving
  return ⟨form, entering, leaving⟩

/-- Each step solves one equation. -/
theorem Descent.exists_division {descent following : Descent α}
    (moves : descent.step = .next following) :
    ∃ division : Division α, descent.division? = some division ∧
      descent.goal.entering? = some division.entering ∧
        descent.tableau.leaving? division.entering = some division.leaving ∧
          descent.tableau.form? division.leaving = some division.form ∧
            following.tableau = (descent.tableau.discard division.leaving).pivot
              division.form division.entering division.leaving := by
  obtain ⟨entering, leaving, form, chosen, left, found, rfl⟩ := of_step_eq_next moves
  refine ⟨⟨form, entering, leaving⟩, ?_, chosen, left, found, rfl⟩
  simp [division?, chosen, left, take?_eq, found]

/-- The row of a basic symbol is solved soundly for a symbol that it mentions. -/
theorem Ordered.sound_division (ordered : tableau.Ordered kinds inside)
    (grained : tableau.Grained fine) (member : (leaving, form) ∈ tableau.equations) {divisor : α}
    (found : form.coefficient? entering = some divisor) :
    Division.Sound fine ⟨form, entering, leaving⟩ := by
  obtain ⟨term, mentioned, named, rfl⟩ := (form.coefficient?_eq_some_iff entering divisor).mp found
  have free := ordered.written _ member term mentioned
  have apart : entering.id ≠ leaving.id := named ▸ free.1.id_ne (form?_of_mem member)
  exact .of_ids apart found (grained.rows _ member term mentioned)

/-- The equation that is solved for a marker before its row is dropped, unless it is basic. -/
def markerDivision? (tableau : Tableau α) (marker : Symbol) : Option (Division α) :=
  match tableau.take? marker with
  | some _ => none
  | none => do
      let leaving ← tableau.markerLeaving? marker
      let (form, _) ← tableau.take? leaving
      return ⟨form, marker, leaving⟩

/-- The solved row mentions the marker. -/
theorem exists_row_of_markerDivision? {division : Division α}
    (solved : tableau.markerDivision? marker = some division) :
    ∃ divisor, (division.leaving, division.form) ∈ tableau.equations ∧
      division.divisor? = some divisor := by
  unfold markerDivision? at solved
  split at solved
  · exact absurd solved.symm (Option.some_ne_none division)
  · obtain ⟨leaving, chosen, solved⟩ := Option.bind_eq_some_iff.mp solved
    obtain ⟨⟨form, rest⟩, found, solved⟩ := Option.bind_eq_some_iff.mp solved
    obtain ⟨row, divisor, member, divided⟩ := exists_row_of_markerLeaving? chosen
    rw [take?_eq, form?_of_mem member] at found
    cases found
    rw [← Option.some.inj solved]
    exact ⟨divisor, member, divided⟩

end Tableau

end SoftSimplex
