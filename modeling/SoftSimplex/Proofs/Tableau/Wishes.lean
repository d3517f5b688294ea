import Mathlib.Tactic.LinearCombination
import SoftSimplex.Proofs.Tableau.Entry
import SoftSimplex.Proofs.Tableau.Growth

/-!
# Wishes for a variable

A wish asks that a multiple of a variable equals that multiple of a target, and has a price. It is
entered as a constraint with two missed amounts for markers, and while both are free the wish is
granted. A wish for a variable that no entry speaks of is granted at once, and nothing can lower the
objective then.
-/

namespace SoftSimplex

/-- A multiple of a variable shall equal that multiple of a target. -/
structure Wish where
  coefficient : Rat
  target : Rat
  weight : Rat

namespace Wish

/-- The price of a unit by which the variable is off the target. -/
def pull (wish : Wish) : Rat := wish.weight * |wish.coefficient|

/-- The wish says something, has a price, and may be missed. -/
structure Sensible (wish : Wish) : Prop where
  coefficient : wish.coefficient ≠ 0
  weight : 0 < wish.weight
  soft : (⟨wish.weight⟩ : Strength Rat).isRequired = false

end Wish

/-- The constraint stands for a wish. -/
structure Constraint.Voices (constraint : Constraint Rat) (wish : Wish) (symbol : Symbol) :
    Prop where
  relation : constraint.relation = some .equal
  strength : constraint.strength = ⟨wish.weight⟩
  eval : ∀ assignment, constraint.expression.eval assignment =
    wish.coefficient * (wish.target - assignment symbol.id)

namespace Constraint

/-- The two markers of a constraint in one order or the other, with the sign of the first one. -/
inductive Twins (constraint : Constraint Rat) : Symbol → Symbol → Rat → Prop where
  | straight : Twins constraint constraint.markers.marker constraint.markers.other (-1)
  | crossed : Twins constraint constraint.markers.other constraint.markers.marker 1

variable {kinds : Nat → Symbol.Kind} {constraint : Constraint Rat} {first second : Symbol}
  {sign : Rat}

namespace Twins

variable (twins : constraint.Twins first second sign)

include twins

theorem swap : constraint.Twins second first (-sign) := by
  cases twins with
  | straight => rw [neg_neg]; exact .crossed
  | crossed => exact .straight

theorem sign_mul_self : sign * sign = 1 := by
  cases twins <;> norm_num

theorem abs_sign : |sign| = 1 := by
  cases twins <;> norm_num

theorem owns (present : first.id ≠ 0) : constraint.Owns first.id := by
  cases twins with
  | straight => exact ⟨present, Or.inl rfl⟩
  | crossed => exact ⟨present, Or.inr rfl⟩

/-- What a constraint owns is one of its two markers. -/
theorem eq_or_eq {id : Nat} (owned : constraint.Owns id) : id = first.id ∨ id = second.id := by
  obtain ⟨_, is_marker | is_other⟩ := owned
  · cases twins with
    | straight => exact Or.inl is_marker.symm
    | crossed => exact Or.inr is_marker.symm
  · cases twins with
    | straight => exact Or.inr is_other.symm
    | crossed => exact Or.inl is_other.symm

end Twins

/-- The constraint stands for a sensible wish, and its markers fit. -/
structure Pursues (kinds : Nat → Symbol.Kind) (constraint : Constraint Rat) (wish : Wish)
    (symbol : Symbol) : Prop extends constraint.Voices wish symbol where
  fit : constraint.Fit kinds
  sensible : wish.Sensible

theorem Voices.soft {wish : Wish} {symbol : Symbol} (voices : constraint.Voices wish symbol)
    (sensible : wish.Sensible) : constraint.strength.isRequired = false := by
  rw [voices.strength]
  exact sensible.soft

namespace Pursues

variable {wish : Wish} {symbol : Symbol} (pursues : constraint.Pursues kinds wish symbol)
  (twins : constraint.Twins first second sign)

include pursues twins

/-- Both markers of a wish are missed amounts. -/
theorem error : first.Proper kinds ∧ first.kind = .error := by
  have soft := pursues.soft pursues.sensible
  cases twins with
  | straight =>
      refine ⟨pursues.fit.markers.marker_proper, ?_⟩
      rw [pursues.fit.markers.marker_kind, pursues.relation, soft]
      rfl
  | crossed => exact pursues.fit.markers.other_proper soft

theorem restricted : first.isRestricted = true := by
  obtain ⟨proper, kind⟩ := pursues.error twins
  exact (Symbol.isRestricted_eq_true_iff first).mpr ⟨proper.1, Or.inr kind⟩

theorem owns : constraint.Owns first.id :=
  twins.owns (pursues.error twins).1.1

theorem ids_ne : first.id ≠ second.id := by
  cases twins with
  | straight => exact pursues.fit.markers.apart.symm
  | crossed => exact pursues.fit.markers.apart

theorem balance_eq (assignment : Assignment) : constraint.balance assignment =
    wish.coefficient * (wish.target - assignment symbol.id) +
      sign * (assignment first.id - assignment second.id) := by
  rw [pursues.fit.balance_soft (pursues.soft pursues.sensible), pursues.eval]
  cases twins <;> ring

theorem price_eq (assignment : Assignment) : constraint.price assignment =
    wish.weight * (assignment first.id + assignment second.id) := by
  rw [price, pursues.fit.missed_soft (pursues.soft pursues.sensible), if_pos pursues.relation,
    pursues.strength]
  cases twins with
  | straight => rfl
  | crossed => rw [add_comm]

omit twins in
/-- Whatever the constraint owns is one of its markers. -/
theorem exists_twins {other : Symbol} (proper : other.Proper kinds)
    (owned : constraint.Owns other.id) : ∃ second sign, constraint.Twins other second sign := by
  obtain ⟨_, is_marker | is_other⟩ := owned
  · rw [proper.eq_of_id_eq (pursues.error .straight).1 is_marker.symm]
    exact ⟨_, _, .straight⟩
  · rw [proper.eq_of_id_eq (pursues.error .crossed).1 is_other.symm]
    exact ⟨_, _, .crossed⟩

end Pursues

end Constraint

namespace Tableau

variable {kinds : Nat → Symbol.Kind} {tableau : Tableau Rat} {symbol first second : Symbol}
  {wish : Wish} {sign : Rat}

section Growing

variable {ledger priced : Ledger} {constraint : Constraint Rat}
  (stands : tableau.Stands kinds ledger priced) (member : constraint ∈ ledger)
  (pursues : constraint.Pursues kinds wish symbol) (twins : constraint.Twins first second sign)

include stands member pursues twins

/-- A variable moves along with the markers of the wishes for it. -/
theorem Stands.growth_eq (grown : Symbol) : wish.coefficient * tableau.growth grown symbol =
    sign * (tableau.growth grown first - tableau.growth grown second) := by
  have there := stands.balanced member (Assignment.unit grown.id)
  have here := stands.balanced member Assignment.zero
  rw [pursues.balance_eq twins] at there here
  simp only [complete_zero] at here
  simp only [growth]
  linarith

/-- A wish whose markers are free is granted. -/
theorem Stands.value_eq_target (free : tableau.form? first = none)
    (free' : tableau.form? second = none) : tableau.value symbol = wish.target := by
  have balanced := stands.balanced member Assignment.zero
  rw [pursues.balance_eq twins] at balanced
  simp only [complete_zero, value_of_not_basic free, value_of_not_basic free', sub_zero, mul_zero,
    add_zero] at balanced
  exact (sub_eq_zero.mp
    ((mul_eq_zero.mp balanced).resolve_left pursues.sensible.coefficient)).symm

end Growing

namespace Draft

variable {ledger : Ledger} {constraint : Constraint Rat} {base : Tableau Rat}
  {form : LinearForm Rat}

section Growing

variable (draft : base.Draft kinds ledger constraint form)
  (pursues : constraint.Pursues kinds wish symbol) (twins : constraint.Twins first second sign)

include draft pursues twins

/-- The markers of a draft have no rows yet. -/
theorem form?_twin : base.form? first = none :=
  (draft.stands.means.foreign_of_owned draft.stands.regular draft.entries (pursues.owns twins)).free

/-- What is in the draft of a wish follows from how its markers and its variable move. -/
theorem exists_coefficient_eq : ∃ factor : Rat, (factor = 1 ∨ factor = -1) ∧
    ∀ grown : Symbol, grown.id ≠ 0 → form.coefficient grown =
      factor * (sign * (base.growth grown first - base.growth grown second) -
        wish.coefficient * base.growth grown symbol) := by
  obtain ⟨factor, is_sign, same⟩ := draft.balances
  refine ⟨factor, is_sign, fun grown proper => ?_⟩
  have regular := draft.stands.regular
  rw [form.coefficient_eq proper, ← form.eval_zero, ← draft.settled.eval_complete,
    ← draft.settled.eval_complete Assignment.zero, same _ (regular.solves_complete _),
    same _ (regular.solves_complete _), pursues.balance_eq twins, pursues.balance_eq twins]
  simp only [complete_zero, growth]
  ring

end Growing

section First

variable (draft : base.Draft kinds [] constraint form)
  (pursues : constraint.Pursues kinds wish symbol) (variable_proper : symbol.Proper kinds)
  (external : symbol.isExternal = true)

include draft pursues variable_proper external

/-- The draft of the first wish for a variable mentions the variable. -/
theorem mentions_variable : form.mentions symbol = true := by
  have free : base.form? symbol = none := draft.stands.regular.form?_of_indifferent
    (draft.stands.means.indifferent variable_proper.1 fun _ member =>
      absurd member List.not_mem_nil)
  have kind : kinds symbol.id = .external := (variable_proper.isOf_iff .external).mp external
  have apart : ∀ {first second sign}, constraint.Twins first second sign →
      first.id ≠ symbol.id := fun twins same =>
    draft.entries.head.kind_ne_external (pursues.owns twins) (same ▸ kind)
  obtain ⟨factor, is_sign, amounts⟩ := draft.exists_coefficient_eq pursues .straight
  refine LinearForm.mentions_of_coefficient_ne_zero ?_
  rw [amounts symbol variable_proper.1, growth_self free,
    growth_of_free (draft.form?_twin pursues .straight) (apart .straight),
    growth_of_free (draft.form?_twin pursues .crossed) (apart .crossed), sub_zero, mul_zero, mul_one,
    zero_sub]
  refine mul_ne_zero ?_ (neg_ne_zero.mpr pursues.sensible.coefficient)
  rcases is_sign with rfl | rfl <;> norm_num

/-- The draft of the first wish for a variable is solved for a variable. -/
theorem exists_subject : ∃ subject,
    form.subject? [constraint.markers.marker, constraint.markers.other] = some subject ∧
      subject.isExternal = true := by
  have unconfined : ¬ form.Over fun other => other.isExternal = false := by
    intro confined
    obtain ⟨term, member, same, _⟩ := LinearForm.exists_term_of_mentions
      (draft.mentions_variable pursues variable_proper external)
    have internal := confined term member
    rw [(draft.settled.proper term member).eq_of_id_eq variable_proper same, external] at internal
    exact Bool.noConfusion internal
  cases chosen : form.subject? [constraint.markers.marker, constraint.markers.other] with
  | none => exact absurd (LinearForm.of_subject?_eq_none chosen).1 unconfined
  | some subject =>
      rcases LinearForm.of_subject?_eq_some chosen with ⟨is_external, _⟩ | ⟨confined, _⟩
      · exact ⟨subject, rfl, is_external⟩
      · exact absurd confined unconfined

end First

end Draft

/-- A tableau that knows nothing but a wish that is granted. -/
theorem Stands.entering?_eq_none {constraint : Constraint Rat}
    (stands : tableau.Stands kinds [constraint] [constraint])
    (entries : Ledger.Regular kinds [constraint]) (pursues : constraint.Pursues kinds wish symbol)
    (free : ∀ {first second sign}, constraint.Twins first second sign →
      tableau.form? first = none) : tableau.objective.entering? = none := by
  by_contra chosen
  obtain ⟨entering, chosen⟩ := Option.ne_none_iff_exists'.mp chosen
  obtain ⟨amount, member, _, negative⟩ := LinearForm.of_entering?_eq_some chosen
  have proper := stands.regular.objective_settled.proper _ member
  obtain ⟨entry, inside, owned⟩ := stands.exists_owner_of_mentions entries proper
    (stands.regular.objective_confined _ member) (LinearForm.mentions_of_mem member)
  obtain rfl := List.mem_singleton.mp inside
  obtain ⟨second, sign, twins⟩ := pursues.exists_twins proper owned
  have rises : tableau.objective.coefficient entering = wish.weight := by
    have other_rests := growth_of_free (free twins.swap) (pursues.ids_ne twins).symm
    have self_grows := growth_self (free twins)
    rw [stands.coefficient_objective proper.1]
    simp only [Ledger.price_cons, Ledger.price_nil, pursues.price_eq twins, complete_zero]
    simp only [growth] at other_rests self_grows
    linear_combination wish.weight * self_grows + wish.weight * other_rests
  have weight := pursues.sensible.weight
  rw [← rises, LinearForm.coefficient_of_mem member] at weight
  exact absurd negative (not_lt.mpr weight.le)

/-- Solving the draft of the first wish for a variable grants the wish. Nothing lowers the objective
after that, and nothing waits. -/
theorem Draft.exists_granted {constraint : Constraint Rat} {base : Tableau Rat}
    {form : LinearForm Rat} (draft : base.Draft kinds [] constraint form)
    (pursues : constraint.Pursues kinds wish symbol) (upright : base.Upright ⟨true, true⟩)
    (proper : symbol.Proper kinds) (external : symbol.isExternal = true) : ∃ subject,
    form.subject? [constraint.markers.marker, constraint.markers.other] = some subject ∧
      (base.pivot form subject Symbol.null).objective.entering? = none ∧
      (base.pivot form subject Symbol.null).agenda.repairs = base.agenda.repairs ∧
      ∀ {first second sign}, constraint.Twins first second sign →
        (base.pivot form subject Symbol.null).form? first = none := by
  obtain ⟨subject, chosen, is_external⟩ := draft.exists_subject pursues proper external
  obtain ⟨subject_proper, entered⟩ := draft.enter_subject upright chosen
  have kind : kinds subject.id = .external := (subject_proper.isOf_iff .external).mp is_external
  have free : ∀ {first second sign}, constraint.Twins first second sign →
      (base.pivot form subject Symbol.null).form? first = none := by
    intro first second sign twins
    have apart : first.id ≠ subject.id := fun same =>
      draft.entries.head.kind_ne_external (pursues.owns twins) (same ▸ kind)
    rw [form?_pivot, if_neg apart, draft.form?_twin pursues twins, Option.map_none]
  refine ⟨subject, chosen, entered.stands.entering?_eq_none draft.entries pursues free, ?_, free⟩
  refine repairs_pivot draft.stands.regular ?_ entered.stands.regular entered.upright
  rcases LinearForm.of_subject?_eq_some chosen with ⟨_, _, member⟩ | ⟨confined, among, restricted, _⟩
  · exact (draft.settled.free _ member).2
  · rw [Symbol.isExternal_eq_false_of_isRestricted restricted] at is_external
    exact Bool.noConfusion is_external

end Tableau

end SoftSimplex
