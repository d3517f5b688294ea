import SoftSimplex.LinearForm
import SoftSimplex.SlotTable.Entries

/-!
# The symbols of a linear form

Which symbols an operation on linear forms can bring in, for any number type. A form is over a
class of symbols if all its terms belong to the class. Looking a symbol up goes by its number, so
a form mentions a symbol exactly if some term bears the number.
-/

namespace SoftSimplex.LinearForm

variable {α : Type} [Scalar α]

/-- All symbols of the form belong to a class. -/
def Over (form : LinearForm α) (allowed : Symbol → Prop) : Prop :=
  ∀ term ∈ form.terms, allowed term.1

omit [Scalar α] in
theorem coefficient?_eq_some_iff (form : LinearForm α) (symbol : Symbol) (coefficient : α) :
    form.coefficient? symbol = some coefficient ↔
      ∃ term ∈ form.terms, term.1.id = symbol.id ∧ term.2 = coefficient :=
  form.coefficients.get?_eq_some_iff symbol coefficient

omit [Scalar α] in
theorem coefficient?_eq_none_iff (form : LinearForm α) (symbol : Symbol) :
    form.coefficient? symbol = none ↔ ∀ term ∈ form.terms, term.1.id ≠ symbol.id :=
  form.coefficients.get?_eq_none_iff symbol

omit [Scalar α] in
theorem mentions_eq_isSome (form : LinearForm α) (symbol : Symbol) :
    form.mentions symbol = (form.coefficient? symbol).isSome :=
  form.coefficients.contains_eq_isSome symbol

omit [Scalar α] in
theorem mentions_eq_false_iff (form : LinearForm α) (symbol : Symbol) :
    form.mentions symbol = false ↔ ∀ term ∈ form.terms, term.1.id ≠ symbol.id := by
  rw [mentions_eq_isSome, ← coefficient?_eq_none_iff, Option.isSome_eq_false_iff,
    Option.isNone_iff_eq_none]

omit [Scalar α] in
theorem coefficient?_congr (form : LinearForm α) {symbol other : Symbol}
    (same : symbol.id = other.id) : form.coefficient? symbol = form.coefficient? other :=
  form.coefficients.get?_congr same

/-- A symbol that is not mentioned need not be replaced. -/
theorem substitute_of_not_mentions {form : LinearForm α} {symbol : Symbol}
    (unmentioned : form.mentions symbol = false) (definition : LinearForm α) :
    form.substitute symbol definition = form := by
  rw [mentions_eq_isSome, Option.isSome_eq_false_iff, Option.isNone_iff_eq_none] at unmentioned
  simp only [substitute, unmentioned]

omit [Scalar α] in
theorem mem_terms_without_iff (form : LinearForm α) (symbol : Symbol) (term : Symbol × α) :
    term ∈ (form.without symbol).terms ↔ term ∈ form.terms ∧ term.1.id ≠ symbol.id :=
  form.coefficients.mem_entries_erase_iff symbol term

omit [Scalar α] in
/-- A form loses all terms that bear the number of one that is taken out. -/
theorem mem_terms_foldl_without_iff (dropped : List (Symbol × α)) (form : LinearForm α)
    (term : Symbol × α) :
    term ∈ (dropped.foldl (fun rest entry => rest.without entry.1) form).terms ↔
      term ∈ form.terms ∧ ∀ entry ∈ dropped, term.1.id ≠ entry.1.id := by
  induction dropped generalizing form with
  | nil => simp
  | cons first rest inductionHypothesis =>
      rw [List.foldl_cons, inductionHypothesis, mem_terms_without_iff, List.forall_mem_cons,
        and_assoc]

omit [Scalar α] in
theorem mem_terms_restrict_iff (form : LinearForm α) (keep : Symbol → Bool)
    (term : Symbol × α) :
    term ∈ (form.restrict keep).terms ↔ term ∈ form.terms ∧ keep term.1 = true := by
  rw [restrict, mem_terms_foldl_without_iff]
  refine and_congr_right fun member => ?_
  constructor
  · intro apart
    cases kept : keep term.1 with
    | true => rfl
    | false => exact absurd rfl (apart term (List.mem_filter.mpr ⟨member, by simp [kept]⟩))
  · intro kept entry dropped same
    obtain ⟨inside, fails⟩ := List.mem_filter.mp dropped
    rw [← form.coefficients.eq_of_mem_of_id_eq member inside same, kept] at fails
    exact Bool.noConfusion fails

theorem mem_terms_scale_iff (form : LinearForm α) (factor : α) (term : Symbol × α) :
    term ∈ (form.scale factor).terms ↔
      ∃ before ∈ form.terms, (before.1, before.2 * factor) = term := by
  change term ∈ (form.coefficients.map (· * factor)).entries ↔ _
  rw [SlotTable.entries_map]
  exact List.mem_map

/-- A term of a sum was there before, or bears the added symbol and has a new coefficient that
is not negligible. -/
theorem mem_terms_plus {form : LinearForm α} {symbol : Symbol} {amount : α}
    {term : Symbol × α} (member : term ∈ (form.plus symbol amount).terms) :
    term ∈ form.terms ∨
      (symbol.isNull = false ∧ term.1.id = symbol.id ∧
        Scalar.negligible term.2 = false ∧
        (term.1 = symbol ∨ ∃ before, (term.1, before) ∈ form.terms)) := by
  by_cases isNull : symbol.isNull = true
  · rw [plus, if_pos isNull] at member
    exact Or.inl member
  · rw [plus, if_neg isNull] at member
    simp only [terms] at member
    split at member
    · rw [SlotTable.mem_entries_erase_iff] at member
      rcases SlotTable.mem_entries_insert member.1 with before | ⟨same, _⟩
      · exact Or.inl before.1
      · exact absurd same member.2
    · rename_i kept
      rcases SlotTable.mem_entries_insert member with before | ⟨same, is_total, origin⟩
      · exact Or.inl before.1
      · refine Or.inr ⟨by simpa using isNull, same, ?_, origin⟩
        rw [is_total]
        simpa using kept

/-- Adding a multiple of another symbol leaves a coefficient alone. -/
theorem coefficient?_plus_of_ne (form : LinearForm α) {symbol sought : Symbol}
    (apart : sought.id ≠ symbol.id) (amount : α) :
    (form.plus symbol amount).coefficient? sought = form.coefficient? sought := by
  unfold plus
  split
  · rfl
  · dsimp only [coefficient?]
    split
    · rw [SlotTable.get?_erase, if_neg apart, SlotTable.get?_insert, if_neg apart]
    · rw [SlotTable.get?_insert, if_neg apart]

/-- A coefficient that counts is the sum of the old one and the amount. -/
theorem coefficient?_plus_self (form : LinearForm α) {symbol : Symbol}
    (present : symbol.isNull = false) {amount : α}
    (counts : Scalar.negligible (form.coefficient symbol + amount) = false) :
    (form.plus symbol amount).coefficient? symbol = some (form.coefficient symbol + amount) := by
  simp only [plus, present, counts, Bool.false_eq_true, if_false, coefficient?]
  rw [SlotTable.get?_insert, if_pos rfl]

theorem coefficient?_scale (form : LinearForm α) (factor : α) (symbol : Symbol) :
    (form.scale factor).coefficient? symbol = (form.coefficient? symbol).map (· * factor) :=
  form.coefficients.get?_map _ symbol

namespace Over

variable {form other : LinearForm α} {allowed : Symbol → Prop}

omit [Scalar α] in
theorem mono (spanned : form.Over allowed) {wider : Symbol → Prop}
    (within : ∀ symbol, allowed symbol → wider symbol) : form.Over wider :=
  fun term member => within term.1 (spanned term member)

omit [Scalar α] in
theorem and (spanned : form.Over allowed) {further : Symbol → Prop} (over' : form.Over further) :
    form.Over fun symbol => allowed symbol ∧ further symbol :=
  fun term member => ⟨spanned term member, over' term member⟩

omit [Scalar α] in
theorem ofConstant (constant : α) : (ofConstant constant).Over allowed :=
  fun _ member => absurd member List.not_mem_nil

theorem plus (spanned : form.Over allowed) {symbol : Symbol}
    (belongs : symbol.isNull = false → allowed symbol) (amount : α) :
    (form.plus symbol amount).Over allowed := by
  intro term member
  rcases mem_terms_plus member with before | ⟨proper, _, _, rfl | ⟨earlier, inside⟩⟩
  · exact spanned term before
  · exact belongs proper
  · exact spanned (term.1, earlier) inside

omit [Scalar α] in
/-- A walk whose steps stay within the class. -/
theorem foldl {σ : Type} {items : List σ} {step : LinearForm α → σ → LinearForm α}
    (spanned : form.Over allowed)
    (keeps : ∀ item ∈ items, ∀ sum : LinearForm α, sum.Over allowed →
      (step sum item).Over allowed) : (items.foldl step form).Over allowed := by
  induction items generalizing form with
  | nil => exact spanned
  | cons item rest inductionHypothesis =>
      apply inductionHypothesis (keeps item List.mem_cons_self form spanned)
      exact fun later member => keeps later (List.mem_cons_of_mem _ member)

theorem plusTerms (spanned : form.Over allowed) {terms : List (Symbol × α)}
    (belong : ∀ term ∈ terms, allowed term.1) (factor : α) :
    (form.plusTerms terms factor).Over allowed :=
  spanned.foldl fun term member _ sum => sum.plus (fun _ => belong term member) _

theorem plusMultiple (spanned : form.Over allowed) (over' : other.Over allowed) (factor : α) :
    (form.plusMultiple other factor).Over allowed := by
  unfold LinearForm.plusMultiple
  have moved : ({ form with constant := form.constant + other.constant * factor } :
      LinearForm α).Over allowed := spanned
  exact moved.plusTerms over' factor

theorem scale (spanned : form.Over allowed) (factor : α) : (form.scale factor).Over allowed := by
  intro term member
  obtain ⟨before, inside, rfl⟩ := (form.mem_terms_scale_iff factor term).mp member
  exact spanned before inside

omit [Scalar α] in
theorem without (spanned : form.Over allowed) (symbol : Symbol) :
    (form.without symbol).Over fun other => allowed other ∧ other.id ≠ symbol.id := by
  intro term member
  obtain ⟨inside, apart⟩ := (form.mem_terms_without_iff symbol term).mp member
  exact ⟨spanned term inside, apart⟩

/-- The replaced symbol is gone unless the definition brings it back. -/
theorem substitute {symbol : Symbol} {definition : LinearForm α}
    (spanned : form.Over fun other => other.id ≠ symbol.id → allowed other)
    (over' : definition.Over allowed) : (form.substitute symbol definition).Over allowed := by
  unfold LinearForm.substitute
  split
  · rename_i absent
    intro term member
    exact spanned term member ((form.coefficient?_eq_none_iff symbol).mp absent term member)
  · have rest := (spanned.without symbol).mono fun other both => both.1 both.2
    exact rest.plusMultiple over' _

/-- The solved form has the other symbols and the leaving one. -/
theorem isolate {entering leaving : Symbol}
    (spanned : form.Over fun other => other.id ≠ entering.id → allowed other)
    (belongs : leaving.isNull = false → allowed leaving) :
    (form.isolate entering leaving).Over allowed := by
  unfold LinearForm.isolate
  split
  · rename_i absent
    intro term member
    exact spanned term member ((form.coefficient?_eq_none_iff entering).mp absent term member)
  · have rest := (spanned.without entering).mono fun other both => both.1 both.2
    exact (rest.scale _).plus belongs _

end Over

omit [Scalar α] in
/-- Nothing is taken out of a form whose symbols all pass the test. -/
theorem restrict_of_over {form : LinearForm α} {keep : Symbol → Bool}
    (spanned : form.Over fun symbol => keep symbol = true) : form.restrict keep = form := by
  have nothing : (form.terms.filter fun term => !keep term.1) = [] := by
    rw [List.filter_eq_nil_iff]
    intro term member
    simpa using spanned term member
  rw [restrict, nothing]
  rfl

end SoftSimplex.LinearForm
