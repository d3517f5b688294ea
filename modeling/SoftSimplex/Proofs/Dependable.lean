import Mathlib.Algebra.Order.Field.Basic
import Mathlib.Algebra.Order.Field.Rat
import Mathlib.Tactic.NormNum
import SoftSimplex.Scalar.Binary64
import SoftSimplex.Scalar.Rational
import SoftSimplex.Strength

/-!
# Dependable arithmetic

Some facts about a solver rest on a handful of sums and comparisons that it makes itself: units are
added to nothing, and strengths are compared with the thresholds. Arithmetic is dependable if it
gets these right. Exact numbers do, under either reading, and so do machine numbers: units and
thresholds are represented exactly, and only a number that is not equal to itself fails to compare.
-/

namespace SoftSimplex

/-- The number is told from nothing. -/
abbrev Scalar.Counts {α : Type} [Scalar α] (number : α) : Prop :=
  negligible number = false

/-- Units are told from nothing and from their opposites, and the thresholds of strengths are in
order. A number that is not above itself compares with nothing. -/
structure Scalar.Dependable (α : Type) [Scalar α] : Prop where
  single : (0 + 1 * 1 : α) = 1
  single_counts : negligible (1 : α) = false
  raised_counts : negligible (0 + 1 : α) = false
  lowered_counts : negligible (0 + -1 : α) = false
  strong_counts : negligible (Strength.strong : Strength α).weight = false
  lowered_neg : (0 + -1 : α) < 0
  raised_turned_neg : ((0 + 1) * -1 : α) < 0
  strong_le_strong : (Strength.strong : Strength α).weight ≤ (Strength.strong : Strength α).weight
  strong_le_required :
    (Strength.strong : Strength α).weight ≤ (Strength.required : Strength α).weight
  not_required_le_strong :
    ¬ (Strength.required : Strength α).weight ≤ (Strength.strong : Strength α).weight
  medium_le_medium : (Strength.medium : Strength α).weight ≤ (Strength.medium : Strength α).weight
  strong_le_of_required_le : ∀ weight : α, (Strength.required : Strength α).weight ≤ weight →
    (Strength.strong : Strength α).weight ≤ weight
  comparable : ∀ weight : α, weight ≤ weight →
    weight ≤ (Strength.strong : Strength α).weight ∨
      (Strength.strong : Strength α).weight ≤ weight

namespace Rational

theorem dependable_exact : Scalar.Dependable Rat where
  single := by decide +kernel
  single_counts := by decide +kernel
  raised_counts := by decide +kernel
  lowered_counts := by decide +kernel
  strong_counts := by decide +kernel
  lowered_neg := by decide +kernel
  raised_turned_neg := by decide +kernel
  strong_le_strong := by decide +kernel
  strong_le_required := by decide +kernel
  not_required_le_strong := by decide +kernel
  medium_le_medium := by decide +kernel
  strong_le_of_required_le weight := le_trans (by decide +kernel)
  comparable weight _ := le_total weight _

/-- The tolerance is far below the unit. -/
theorem dependable_tolerant : @Scalar.Dependable Rat tolerant :=
  @Scalar.Dependable.mk Rat tolerant (by decide +kernel) (by decide +kernel) (by decide +kernel)
    (by decide +kernel) (by decide +kernel) dependable_exact.lowered_neg dependable_exact.raised_turned_neg
    dependable_exact.strong_le_strong dependable_exact.strong_le_required
    dependable_exact.not_required_le_strong dependable_exact.medium_le_medium
    dependable_exact.strong_le_of_required_le dependable_exact.comparable

theorem tolerance_pos : 0 < tolerance := by decide +kernel

/-- Two numbers are within a tolerance if they differ by less. -/
theorem within_iff (bound left right : Rat) :
    Scalar.within bound left right = true ↔ |left - right| < bound := by
  unfold Scalar.within
  split
  · rename_i less
    rw [decide_eq_true_eq, abs_of_pos (sub_pos.mpr less)]
  · rename_i not_less
    rw [decide_eq_true_eq, abs_sub_comm, abs_of_nonneg (sub_nonneg.mpr (not_lt.mp not_less))]

theorem counts_iff {number : Rat} :
    @Scalar.Counts Rat tolerant number ↔ tolerance ≤ |number| := by
  have near : @Scalar.negligible Rat tolerant number = true ↔ |number - 0| < tolerance :=
    within_iff tolerance number 0
  rw [sub_zero] at near
  unfold Scalar.Counts
  rw [← Bool.not_eq_true, near, not_lt]

theorem ne_zero_of_counts {number : Rat} (counts : @Scalar.Counts Rat tolerant number) :
    number ≠ 0 :=
  abs_pos.mp (lt_of_lt_of_le tolerance_pos (counts_iff.mp counts))

theorem counts_turned {number : Rat} (counts : @Scalar.Counts Rat tolerant number) :
    @Scalar.Counts Rat tolerant (number * -1) := by
  rw [counts_iff] at counts ⊢
  rwa [mul_neg_one, abs_neg]

/-- Dividing by a number of size one at most makes no number smaller. -/
theorem counts_divided {number divisor : Rat} (counts : @Scalar.Counts Rat tolerant number)
    (present : divisor ≠ 0) (mild : |divisor| ≤ 1) :
    @Scalar.Counts Rat tolerant (number * -(1 / divisor)) := by
  rw [counts_iff] at counts ⊢
  calc
    tolerance ≤ |number| := counts
    _ ≤ |number| / |divisor| := le_div_self (abs_nonneg number) (abs_pos.mpr present) mild
    _ = |number * -(1 / divisor)| := by rw [mul_neg, abs_neg, mul_one_div, abs_div]

end Rational

namespace Binary64

open Float.Model

/-- Exponents decide, and mantissas where exponents agree. -/
theorem le_positive {mantissa other : Nat} {exponent power : Int} (positive : 0 < mantissa)
    (positive' : 0 < other) : (UnpackedFloat.finite .positive mantissa exponent positive).le
      (.finite .positive other power positive') =
        ((compare exponent power).then (compare mantissa other)).isLE := rfl

/-- What is at least a positive number is above every positive number of a smaller exponent. -/
theorem le_of_le {mantissa larger : Nat} {exponent higher : Int} (positive : 0 < mantissa)
    (positive' : 0 < larger) (below : exponent < higher) {number : UnpackedFloat}
    (le : (UnpackedFloat.finite .positive larger higher positive').le number = true) :
    (UnpackedFloat.finite .positive mantissa exponent positive).le number = true := by
  cases number with
  | notANumber => exact le
  | infinity sign => cases sign <;> exact le
  | zero sign => exact le
  | finite sign other power present =>
      cases sign with
      | negative => exact le
      | positive =>
          have reached : higher ≤ power := by
            by_contra beyond
            rw [le_positive, Int.compare_eq_gt.mpr (not_le.mp beyond)] at le
            exact Bool.noConfusion le
          rw [le_positive, Int.compare_eq_lt.mpr (lt_of_lt_of_le below reached)]
          rfl

/-- Two numbers that compare with themselves compare with each other. -/
theorem le_or_le {mantissa : Nat} {exponent : Int} (positive : 0 < mantissa)
    {number : UnpackedFloat} (reflexive : number.le number = true) :
    number.le (.finite .positive mantissa exponent positive) = true ∨
      (UnpackedFloat.finite .positive mantissa exponent positive).le number = true := by
  cases number with
  | notANumber => exact absurd reflexive Bool.false_ne_true
  | infinity sign =>
      cases sign with
      | negative => exact Or.inl rfl
      | positive => exact Or.inr rfl
  | zero sign => exact Or.inl rfl
  | finite sign other power present =>
      cases sign with
      | negative => exact Or.inl rfl
      | positive =>
          rw [le_positive, le_positive]
          rcases lt_trichotomy power exponent with less | rfl | greater
          · rw [Int.compare_eq_lt.mpr less]
            exact Or.inl rfl
          · simp only [Int.compare_eq_eq.mpr, Ordering.then, Nat.isLE_compare]
            exact Nat.le_total other mantissa
          · rw [Int.compare_eq_lt.mpr greater]
            exact Or.inr rfl

theorem unpack_strong : (Strength.strong : Strength Float).weight.toModel.unpack =
    .finite .positive 8589934592000000 (-33) (by decide) := rfl

theorem unpack_required : (Strength.required : Strength Float).weight.toModel.unpack =
    .finite .positive 8388608000000000 (-23) (by decide) := rfl

theorem le_iff (left right : Float) :
    left ≤ right ↔ left.toModel.unpack.le right.toModel.unpack = true := by
  change decide (left.toModel.unpack.le right.toModel.unpack = true) = true ↔ _
  rw [decide_eq_true_iff]

theorem dependable : Scalar.Dependable Float where
  single := rfl
  single_counts := by decide +kernel
  raised_counts := by decide +kernel
  lowered_counts := by decide +kernel
  strong_counts := by decide +kernel
  lowered_neg := by decide +kernel
  raised_turned_neg := by decide +kernel
  strong_le_strong := by decide +kernel
  strong_le_required := by decide +kernel
  not_required_le_strong := by decide +kernel
  medium_le_medium := by decide +kernel
  strong_le_of_required_le weight above := by
    rw [le_iff, unpack_required] at above
    rw [le_iff, unpack_strong]
    exact le_of_le _ _ (by decide) above
  comparable weight reflexive := by
    rw [le_iff] at reflexive
    rw [le_iff, le_iff, unpack_strong]
    exact le_or_le _ reflexive

end Binary64

end SoftSimplex
