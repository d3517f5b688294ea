import SoftSimplex.Scalar.Basic

/-!
# Double-precision numbers

The working number type. Results are those of binary floating-point arithmetic in the order in
which the solver performs it; nothing is reassociated and no product is fused with a sum.
-/

namespace SoftSimplex.Binary64

/-- Numbers closer together than one millionth are not told apart. -/
def tolerance : Float := 1e-6

/-- The largest finite double. -/
def largest : Float := Float.ofBits 0x7fefffffffffffff

instance : Scalar Float where
  zero := 0.0
  one := 1.0
  natCast := Float.ofNat
  decideLT := inferInstance
  decideLE := inferInstance
  close := Scalar.within tolerance
  belowLargest ratio := decide (ratio < largest)

end SoftSimplex.Binary64
