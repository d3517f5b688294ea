import SoftSimplex.Scalar.Basic

/-!
# Rational numbers

Two readings of rational arithmetic. The exact one tells all distinct numbers apart and bounds
no ratio; it is the instance. The tolerant one keeps the tolerance and the largest number of
double precision, and has to be asked for.
-/

namespace SoftSimplex.Rational

/-- Exact arithmetic: close means equal, and every ratio is considered. -/
instance exact : Scalar Rat where
  zero := 0
  one := 1
  natCast := Nat.cast
  decideLT := inferInstance
  decideLE := inferInstance
  close left right := decide (left = right)
  belowLargest _ := true

/-- One millionth. -/
def tolerance : Rat := 1 / 1000000

/-- The value of the largest finite double. -/
def largest : Rat := ((Nat.pow 2 53 - 1) * Nat.pow 2 971 : Nat)

/-- Exact operations under the tolerance and the bound of double precision. -/
@[reducible]
def tolerant : Scalar Rat where
  zero := 0
  one := 1
  natCast := Nat.cast
  decideLT := inferInstance
  decideLE := inferInstance
  close := Scalar.within tolerance
  belowLargest ratio := decide (ratio < largest)

end SoftSimplex.Rational
