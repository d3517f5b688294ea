import SoftSimplex.Proofs.Dependable
import SoftSimplex.Proofs.Form.Support

/-!
# Coefficients of a class

All coefficients of a form may belong to a class of numbers. Sums keep to a class that has all
numbers that count, because a coefficient that becomes negligible is dropped. Solving for a symbol
multiplies without such a check, so the class must be closed under the divisions that are made.

Under the tolerance there are two such classes. Dividing by any number other than zero gives no
zero, and dividing by a number of size one at most makes no coefficient negligible.
-/

namespace SoftSimplex

variable {α : Type} [Scalar α]

/-- A class of coefficients, with a class of divisors that keep to it. -/
structure Scalar.Grain (fine mild : α → Prop) : Prop where
  counts : ∀ number, Counts number → fine number
  divided : ∀ number divisor, fine number → fine divisor → mild divisor →
    fine (number * -(1 / divisor))
  turned_counts : ∀ number : α, Counts number → Counts (number * -1)

namespace LinearForm

variable {fine mild : α → Prop} {form other : LinearForm α}

/-- All coefficients belong to a class. -/
def Grained (fine : α → Prop) (form : LinearForm α) : Prop :=
  ∀ term ∈ form.terms, fine term.2

instance [DecidablePred fine] (form : LinearForm α) : Decidable (form.Grained fine) :=
  inferInstanceAs (Decidable (∀ term ∈ form.terms, fine term.2))

namespace Grained

omit [Scalar α] in
theorem of_terms (grained : form.Grained fine) (same : other.terms = form.terms) :
    other.Grained fine := by
  unfold Grained
  rwa [same]

omit [Scalar α] in
theorem of_coefficient?_eq_some (grained : form.Grained fine) {symbol : Symbol} {coefficient : α}
    (found : form.coefficient? symbol = some coefficient) : fine coefficient := by
  obtain ⟨term, member, _, rfl⟩ := (form.coefficient?_eq_some_iff symbol coefficient).mp found
  exact grained term member

omit [Scalar α] in
theorem ofConstant (constant : α) : (ofConstant constant).Grained fine :=
  fun _ member => absurd member List.not_mem_nil

omit [Scalar α] in
theorem without (grained : form.Grained fine) (symbol : Symbol) :
    (form.without symbol).Grained fine :=
  fun term member => grained term ((form.mem_terms_without_iff symbol term).mp member).1

omit [Scalar α] in
theorem restrict (grained : form.Grained fine) (keep : Symbol → Bool) :
    (form.restrict keep).Grained fine :=
  fun term member => grained term ((form.mem_terms_restrict_iff keep term).mp member).1

theorem cleared (form : LinearForm α) : form.cleared.Grained fine := by
  intro term member
  change term ∈ form.coefficients.clear.entries at member
  rw [SlotTable.entries_clear] at member
  exact absurd member List.not_mem_nil

theorem scale (grained : form.Grained fine) {factor : α}
    (scaled : ∀ number, fine number → fine (number * factor)) :
    (form.scale factor).Grained fine := by
  intro term member
  obtain ⟨before, inside, rfl⟩ := (form.mem_terms_scale_iff factor term).mp member
  exact scaled before.2 (grained before inside)

omit [Scalar α] in
/-- A walk whose steps keep to the class. -/
theorem foldl {σ : Type} {items : List σ} {step : LinearForm α → σ → LinearForm α}
    (grained : form.Grained fine)
    (keeps : ∀ item ∈ items, ∀ sum : LinearForm α, sum.Grained fine →
      (step sum item).Grained fine) :
    (items.foldl step form).Grained fine :=
  List.foldlRecOn items step grained fun sum kept item member => keeps item member sum kept

section Sums

variable (counts : ∀ number : α, Scalar.Counts number → fine number)

include counts

theorem plus (grained : form.Grained fine) (symbol : Symbol) (amount : α) :
    (form.plus symbol amount).Grained fine := by
  intro term member
  rcases mem_terms_plus member with before | ⟨_, _, kept, _⟩
  · exact grained term before
  · exact counts term.2 kept

theorem plusTerms (grained : form.Grained fine) (terms : List (Symbol × α)) (factor : α) :
    (form.plusTerms terms factor).Grained fine :=
  grained.foldl fun _ _ _ sum => sum.plus counts _ _

theorem plusMultiple (grained : form.Grained fine) (other : LinearForm α) (factor : α) :
    (form.plusMultiple other factor).Grained fine := by
  have moved : ({ form with constant := form.constant + other.constant * factor } :
      LinearForm α).Grained fine := grained
  exact moved.plusTerms counts _ factor

theorem substitute (grained : form.Grained fine) (symbol : Symbol) (definition : LinearForm α) :
    (form.substitute symbol definition).Grained fine := by
  unfold LinearForm.substitute
  split
  · exact grained
  · exact (grained.without symbol).plusMultiple counts definition _

end Sums

/-- Solving keeps to the class if the entering symbol has a mild coefficient. -/
theorem isolate (grain : Scalar.Grain fine mild) (grained : form.Grained fine)
    {entering : Symbol} (leaving : Symbol)
    (divides : ∀ divisor, form.coefficient? entering = some divisor → mild divisor) :
    (form.isolate entering leaving).Grained fine := by
  unfold LinearForm.isolate
  split
  · exact grained
  · rename_i divisor found
    have rest := (grained.without entering).scale fun number is_fine =>
      grain.divided number divisor is_fine (grained.of_coefficient?_eq_some found)
        (divides divisor found)
    exact rest.plus grain.counts leaving _

end Grained

end LinearForm

namespace Rational

theorem grain_nonzero : @Scalar.Grain Rat tolerant (· ≠ 0) fun _ => True :=
  @Scalar.Grain.mk Rat tolerant _ _ (fun _ => ne_zero_of_counts)
    (fun _ _ nonzero present _ => mul_ne_zero nonzero (neg_ne_zero.mpr (one_div_ne_zero present)))
    fun _ => counts_turned

theorem grain_counts :
    @Scalar.Grain Rat tolerant (@Scalar.Counts Rat tolerant) fun divisor => |divisor| ≤ 1 :=
  @Scalar.Grain.mk Rat tolerant _ _ (fun _ => id)
    (fun _ _ counts counts' => counts_divided counts (ne_zero_of_counts counts'))
    fun _ => counts_turned

end Rational

end SoftSimplex
