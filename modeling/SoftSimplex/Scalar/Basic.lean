/-!
# Numbers the solver computes with

The solver is written once for any number type that offers arithmetic, an order and two
judgements. `close` says when two numbers are too near each other to be told apart, and
`belowLargest` says when a ratio is small enough to be considered at all. Exact numbers make
`close` equality and let every ratio through; machine numbers use a fixed tolerance and their
largest finite value.

No law is assumed: rounding arithmetic has none to offer. A theorem that needs laws is stated
for a number type that has them.
-/

namespace SoftSimplex

/-- A number type with the comparisons and tolerances that pivoting relies on. -/
class Scalar (α : Type) extends
    Zero α, One α, Add α, Sub α, Mul α, Div α, Neg α, LT α, LE α, BEq α, NatCast α where
  /-- The strict order can be tested. -/
  decideLT : DecidableLT α
  /-- The order can be tested. -/
  decideLE : DecidableLE α
  /-- The two numbers are not told apart. -/
  close : α → α → Bool
  /-- The ratio lies below the largest number there is. -/
  belowLargest : α → Bool

namespace Scalar

/-- The larger of two numbers exceeds the smaller by less than the tolerance. -/
def within {α : Type} [Sub α] [LT α] [DecidableLT α] (tolerance left right : α) : Bool :=
  if right < left then decide (left - right < tolerance)
  else decide (right - left < tolerance)

variable {α : Type} [Scalar α]

instance : DecidableLT α := decideLT

instance : DecidableLE α := decideLE

/-- A number that is not told apart from zero. -/
def negligible (number : α) : Bool :=
  close number 0

end Scalar

end SoftSimplex
