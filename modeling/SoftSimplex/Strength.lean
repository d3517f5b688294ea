import SoftSimplex.Scalar.Basic

/-!
# Strengths

The strength of a constraint is the price per unit of missing it. From a fixed threshold on a
constraint may not be missed at all. A negligible strength is no preference worth stating, so
asking for it means asking for a required constraint.
-/

namespace SoftSimplex

/-- The price per unit of missing a constraint. -/
structure Strength (α : Type) where
  weight : α

namespace Strength

variable {α : Type} [Scalar α]

/-- The constraint may not be missed. -/
def required : Strength α := ⟨(1000000000 : Nat)⟩

/-- The highest price that an edit may have. -/
def strong : Strength α := ⟨(1000000 : Nat)⟩

/-- The price of an edit that nobody priced. -/
def medium : Strength α := ⟨(1000 : Nat)⟩

/-- The unit price. -/
def weak : Strength α := ⟨(1 : Nat)⟩

/-- The strength reaches the threshold from which a constraint may not be missed. -/
def isRequired (strength : Strength α) : Bool :=
  decide ((required : Strength α).weight ≤ strength.weight)

/-- The strength itself, or `required` if it is negligible. -/
def orRequired (strength : Strength α) : Strength α :=
  if Scalar.negligible strength.weight then required else strength

/-- The strength itself, or `strong` if it is at least as strong. -/
def cappedAtStrong (strength : Strength α) : Strength α :=
  if (strong : Strength α).weight ≤ strength.weight then strong else strength

/-- The order of two strengths, unless their weights cannot be compared. -/
def compare? (left right : Strength α) : Option Ordering :=
  if left.weight == right.weight then some .eq
  else if left.weight < right.weight then some .lt
  else if right.weight < left.weight then some .gt
  else none

instance : BEq (Strength α) where
  beq left right := left.weight == right.weight

instance : Inhabited (Strength α) where
  default := required

end Strength

end SoftSimplex
