namespace GridInversion

/-- Numbers that can be the cells of a matrix, without any law. There is one zero: sums and fresh
buffers start with it, and it is the default value that wiping writes. -/
class Scalar (α : Type) extends
    Zero α, One α, Add α, Sub α, Mul α, Div α, Neg α, BEq α, LT α, LE α where
  isFinite : α → Bool
  decidableLT : DecidableLT α
  decidableLE : DecidableLE α

namespace Scalar

variable {α : Type} [Scalar α]

instance : DecidableLT α := Scalar.decidableLT

instance : DecidableLE α := Scalar.decidableLE

/-- The absolute value: whatever is not below zero stays as it is, a negative zero included. -/
def abs (x : α) : α := if x < 0 then -x else x

end Scalar

end GridInversion
