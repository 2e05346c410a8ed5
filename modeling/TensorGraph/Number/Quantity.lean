import TensorGraph.Number.Binary

/-!
Quantities: integers and binary numbers in one computation. An integer stays exact until it meets
a binary number.
-/

namespace TensorGraph.Number

/-- An integer or a binary number. -/
inductive Quantity where
  | whole (n : Int)
  | real (x : Binary64)
deriving DecidableEq, Repr

namespace Quantity

/-- The binary number next to a quantity, none where an integer lies beyond the finite ones. -/
def toReal? : Quantity → Option Binary64
  | whole n => Binary64.ofInt? n
  | real x => some x

/-- The product, none where an integer is too large to meet a binary number. -/
def mul? : Quantity → Quantity → Option Quantity
  | whole m, whole n => some (whole (m * n))
  | a, b => do some (real ((← a.toReal?).mul (← b.toReal?)))

/-- Whether a quantity is zero; negative zero is. -/
def isZero : Quantity → Bool
  | whole n => n == 0
  | real x => x.isZero

end Quantity

end TensorGraph.Number
