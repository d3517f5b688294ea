import SoftSimplex.Proofs.Form.Support
import SoftSimplex.Proofs.Form.Value

/-!
# Reduced forms

A form is reduced if no coefficient is zero. Then a symbol is mentioned exactly if the value of
the form depends on it. Every operation that exchanges symbols keeps forms reduced, because a
coefficient that cancels is dropped.
-/

namespace SoftSimplex.LinearForm

/-- No coefficient is zero. -/
def Reduced (form : LinearForm Rat) : Prop :=
  ∀ term ∈ form.terms, term.2 ≠ 0

/-- The value depends only on the symbols of the form. -/
theorem eval_congr {form : LinearForm Rat} {allowed : Symbol → Prop} (spanned : form.Over allowed)
    {assignment other : Assignment}
    (same : ∀ symbol, allowed symbol → symbol.under assignment = symbol.under other) :
    form.eval assignment = form.eval other :=
  congrArg (form.constant + ·)
    (SlotTable.total_congr _ fun filed member => same filed.1 (spanned filed member))

theorem coefficient_of_mem {form : LinearForm Rat} {term : Symbol × Rat}
    (member : term ∈ form.terms) : form.coefficient term.1 = term.2 :=
  coefficient_of_eq_some ((form.coefficient?_eq_some_iff term.1 term.2).mpr
    ⟨term, member, rfl, rfl⟩)

theorem mentions_congr (form : LinearForm Rat) {symbol other : Symbol}
    (same : symbol.id = other.id) : form.mentions symbol = form.mentions other := by
  rw [mentions_eq_isSome, mentions_eq_isSome, form.coefficient?_congr same]

theorem coefficient?_of_mentions {form : LinearForm Rat} {symbol : Symbol}
    (mentioned : form.mentions symbol = true) :
    form.coefficient? symbol = some (form.coefficient symbol) := by
  rw [mentions_eq_isSome] at mentioned
  obtain ⟨coefficient, found⟩ := Option.isSome_iff_exists.mp mentioned
  rw [found, coefficient_of_eq_some found]

theorem coefficient_of_not_mentions {form : LinearForm Rat} {symbol : Symbol}
    (unmentioned : form.mentions symbol = false) : form.coefficient symbol = 0 := by
  rw [mentions_eq_isSome, Option.isSome_eq_false_iff, Option.isNone_iff_eq_none] at unmentioned
  exact coefficient_of_eq_none unmentioned

theorem mentions_of_coefficient_ne_zero {form : LinearForm Rat} {symbol : Symbol}
    (nonzero : form.coefficient symbol ≠ 0) : form.mentions symbol = true := by
  rw [← Bool.not_eq_false]
  exact fun unmentioned => nonzero (coefficient_of_not_mentions unmentioned)

/-- A symbol that is mentioned and one that is not bear different numbers. -/
theorem id_ne_of_mentions {form : LinearForm Rat} {symbol other : Symbol}
    (mentioned : form.mentions symbol = true) (unmentioned : form.mentions other = false) :
    symbol.id ≠ other.id := by
  intro same
  rw [form.mentions_congr same, unmentioned] at mentioned
  exact Bool.noConfusion mentioned

/-- Some term bears the number of a symbol that is mentioned. -/
theorem exists_term_of_mentions {form : LinearForm Rat} {symbol : Symbol}
    (mentioned : form.mentions symbol = true) :
    ∃ term ∈ form.terms, term.1.id = symbol.id ∧ term.2 = form.coefficient symbol :=
  (form.coefficient?_eq_some_iff symbol _).mp (coefficient?_of_mentions mentioned)

theorem mentions_of_mem {form : LinearForm Rat} {term : Symbol × Rat}
    (member : term ∈ form.terms) : form.mentions term.1 = true := by
  rw [mentions_eq_isSome, (form.coefficient?_eq_some_iff term.1 term.2).mpr
    ⟨term, member, rfl, rfl⟩]
  rfl

section Solving

variable {form : LinearForm Rat} {entering : Symbol} (nonzero : form.coefficient entering ≠ 0)
  (leaving : Symbol)

include nonzero

theorem eval_isolate_of_ne_zero (assignment : Assignment) :
    (form.isolate entering leaving).eval assignment = entering.under assignment +
      (leaving.under assignment - form.eval assignment) / form.coefficient entering :=
  eval_isolate (coefficient?_of_mentions (mentions_of_coefficient_ne_zero nonzero)) nonzero leaving
    assignment

/-- The equation holds exactly if the entering symbol has the value of the solved form. -/
theorem under_eq_isolate_iff (assignment : Assignment) :
    entering.under assignment = (form.isolate entering leaving).eval assignment ↔
      leaving.under assignment = form.eval assignment := by
  rw [eval_isolate_of_ne_zero nonzero, left_eq_add, div_eq_zero_iff, sub_eq_zero]
  exact or_iff_left nonzero

theorem constant_isolate :
    (form.isolate entering leaving).constant = -form.constant / form.coefficient entering := by
  have at_zero := eval_isolate_of_ne_zero nonzero leaving Assignment.zero
  rw [eval_zero, eval_zero, Symbol.under_zero, Symbol.under_zero, zero_sub, zero_add] at at_zero
  exact at_zero

theorem coefficient_isolate {symbol : Symbol} (proper : symbol.id ≠ 0)
    (apart : symbol.id ≠ entering.id) :
    (form.isolate entering leaving).coefficient symbol =
      (leaving.under (Assignment.unit symbol.id) - form.coefficient symbol) /
        form.coefficient entering := by
  rw [coefficient_eq _ proper, eval_isolate_of_ne_zero nonzero, constant_isolate nonzero,
    Symbol.under_unit_of_ne apart.symm, form.coefficient_eq proper]
  ring

/-- Where the equation holds, replacing the symbol changes the value of no form. -/
theorem eval_substitute_isolate (other : LinearForm Rat) {leaving : Symbol}
    {assignment : Assignment} (equation : leaving.under assignment = form.eval assignment) :
    (other.substitute entering (form.isolate entering leaving)).eval assignment =
      other.eval assignment := by
  rw [eval_substitute, (under_eq_isolate_iff nonzero leaving assignment).mpr equation, sub_self,
    mul_zero, add_zero]

end Solving

namespace Over

variable {form : LinearForm Rat} {allowed : Symbol → Prop}

theorem eval_set {symbol : Symbol}
    (spanned : form.Over fun other => other.id ≠ symbol.id) (assignment : Assignment)
    (number : Rat) : form.eval (assignment.set symbol.id number) = form.eval assignment :=
  eval_congr spanned fun _ apart => Symbol.under_set_of_ne apart assignment number

end Over

/-- A form that does not mention a symbol does not depend on it. -/
theorem over_ne_of_not_mentions {form : LinearForm Rat} {symbol : Symbol}
    (unmentioned : form.mentions symbol = false) :
    form.Over fun other => other.id ≠ symbol.id :=
  (form.mentions_eq_false_iff symbol).mp unmentioned

namespace Reduced

variable {form other : LinearForm Rat}

theorem ofConstant (constant : Rat) : (ofConstant constant).Reduced :=
  fun _ member => absurd member List.not_mem_nil

theorem cleared (form : LinearForm Rat) : form.cleared.Reduced := by
  intro term member
  change term ∈ form.coefficients.clear.entries at member
  rw [SlotTable.entries_clear] at member
  exact absurd member List.not_mem_nil

theorem plus (reduced : form.Reduced) (symbol : Symbol) (amount : Rat) :
    (form.plus symbol amount).Reduced := by
  intro term member
  rcases mem_terms_plus member with before | ⟨_, _, kept, _⟩
  · exact reduced term before
  · exact of_decide_eq_false kept

theorem plusTerms (reduced : form.Reduced) (terms : List (Symbol × Rat)) (factor : Rat) :
    (form.plusTerms terms factor).Reduced := by
  unfold LinearForm.plusTerms
  induction terms generalizing form with
  | nil => exact reduced
  | cons term rest inductionHypothesis =>
      rw [List.foldl_cons]
      exact inductionHypothesis (reduced.plus _ _)

theorem plusMultiple (reduced : form.Reduced) (other : LinearForm Rat) (factor : Rat) :
    (form.plusMultiple other factor).Reduced := by
  unfold LinearForm.plusMultiple
  have moved : ({ form with constant := form.constant + other.constant * factor } :
      LinearForm Rat).Reduced := reduced
  exact moved.plusTerms _ factor

theorem scale (reduced : form.Reduced) {factor : Rat} (nonzero : factor ≠ 0) :
    (form.scale factor).Reduced := by
  intro term member
  obtain ⟨before, inside, rfl⟩ := (form.mem_terms_scale_iff factor term).mp member
  exact mul_ne_zero (reduced before inside) nonzero

theorem without (reduced : form.Reduced) (symbol : Symbol) : (form.without symbol).Reduced :=
  fun term member => reduced term ((form.mem_terms_without_iff symbol term).mp member).1

theorem substitute (reduced : form.Reduced) (symbol : Symbol) (definition : LinearForm Rat) :
    (form.substitute symbol definition).Reduced := by
  unfold LinearForm.substitute
  split
  · exact reduced
  · exact (reduced.without symbol).plusMultiple definition _

theorem coefficient_ne_zero (reduced : form.Reduced) {symbol : Symbol}
    (mentioned : form.mentions symbol = true) : form.coefficient symbol ≠ 0 := by
  obtain ⟨term, member, _, is_coefficient⟩ := exists_term_of_mentions mentioned
  rw [← is_coefficient]
  exact reduced term member

theorem mentions_iff (reduced : form.Reduced) (symbol : Symbol) :
    form.mentions symbol = true ↔ form.coefficient symbol ≠ 0 :=
  ⟨reduced.coefficient_ne_zero, mentions_of_coefficient_ne_zero⟩

theorem isolate (reduced : form.Reduced) (entering leaving : Symbol) :
    (form.isolate entering leaving).Reduced := by
  unfold LinearForm.isolate
  split
  · exact reduced
  · rename_i coefficient found
    obtain ⟨term, member, _, rfl⟩ := (form.coefficient?_eq_some_iff entering coefficient).mp found
    have nonzero : -(1 / term.2) ≠ 0 := neg_ne_zero.mpr (one_div_ne_zero (reduced term member))
    exact ((reduced.without entering).scale nonzero).plus leaving _

end Reduced

end SoftSimplex.LinearForm
