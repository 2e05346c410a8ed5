import TensorGraph.Number.Quantity
import TensorGraph.Shape.OfValue

/-!
Reshaping: the same number of elements under other extents. One extent may be left open as `-1`;
it becomes what the others leave.
-/

namespace TensorGraph.Shape

open Number

/-- Checks the extents of a target in order: at most one is left open, and no other lies below
zero. -/
def checkTarget (target : List Int) : Bool → List Int → Except Error Unit
  | _, [] => .ok ()
  | opened, d :: rest =>
    if d = -1 then
      if opened then .error (.shape (.severalInferred (target.map .int)))
      else checkTarget target true rest
    else if d < 0 then .error (.shape (.badTarget (.int d)))
    else checkTarget target opened rest

/-- The product of the extents that are not left open. -/
def knownSize (target : List Int) : Int := (target.filter (· ≠ -1)).foldr (· * ·) 1

/-- The extents with the open one filled in. -/
def filled (target : List Int) (extent : Nat) : List Nat :=
  target.map fun d => if d = -1 then extent else d.toNat

/-- The result, provided that it has as many elements. -/
def sameSize (s result : Shape) : Except Error Shape :=
  if result.size = s.size then .ok result else .error (.shape (.sizeDiffers s result))

/-- The shape with other extents, of which one may be left open as `-1`. -/
def reshape (s : Shape) (target : List Int) : Except Error Shape := do
  checkTarget target false target
  if -1 ∈ target then
    let known := knownSize target
    if known = 0 ∨ (s.size : Int) % known ≠ 0 then
      .error (.shape (.notDivisible s (target.map .int)))
    else sameSize s ⟨filled target ((s.size : Int) / known).toNat⟩
  else sameSize s ⟨filled target 0⟩

/-- A loose extent as a quantity, none where it is left open. -/
def looseExtent : Value → Except Error (Option Quantity)
  | .bool b => .ok (some (.whole (if b then 1 else 0)))
  | .int n =>
    if n = -1 then .ok none
    else if n < 0 then .error (.shape (.badTarget (.int n)))
    else .ok (some (.whole n))
  | .float x =>
    if x = Binary64.ofRatio true 1 1 then .ok none
    else if x.isBelowZero then .error (.shape (.badTarget (.float x)))
    else .ok (some (.real x))
  | .complex re im =>
    if re = Binary64.ofRatio true 1 1 ∧ im.isZero then .ok none else failWith .wrongForm
  | _ => failWith .wrongForm

/-- The position of the open extent among loose ones, and the product of the others. -/
def scanLoose (target : List Value) :
    Nat → Option Nat → Quantity → List Value → Except Error (Option Nat × Quantity)
  | _, opened, known, [] => .ok (opened, known)
  | position, opened, known, value :: rest => do
    match ← looseExtent value with
    | none =>
      if opened.isSome then .error (.shape (.severalInferred target))
      else scanLoose target (position + 1) (some position) known rest
    | some q =>
      scanLoose target (position + 1) opened (← orError (known.mul? q) (.fault .overflow)) rest

/-- What the known extents leave of a number of elements, none where they do not divide it. -/
def leftover? (size : Nat) : Quantity → Except Error (Option Value)
  | .whole n =>
    .ok (if n = 0 ∨ (size : Int) % n ≠ 0 then none else some (.int ((size : Int) / n)))
  | .real x =>
    if x.isZero then .ok none
    else do
      let total ← orError (Binary64.ofInt? size) (.fault .overflow)
      if !x.isFinite && !x.isUndefined && total.isZero then
        return some (.float Binary64.zero)
      return (total.exactQuotient? x).bind fun q => (Binary64.ofInt? q).map Value.float

/-- Reshaping to loose extents. Extents that are no integers take part in the arithmetic before
the result is refused as a shape. -/
def reshapeLoose (s : Shape) (target : List Value) : Except Error Shape := do
  let (opened, known) ← scanLoose target 0 none (.whole 1) target
  match opened with
  | none => sameSize s (← ofValues target)
  | some position =>
    match ← leftover? s.size known with
    | none => .error (.shape (.notDivisible s target))
    | some extent => sameSize s (← ofValues (target.set position extent))

/-- Reshaping to extents that may not be integers. -/
def reshapeValues (s : Shape) (target : List Value) : Except Error Shape :=
  match Value.allInts? target with
  | some dims => s.reshape dims
  | none => s.reshapeLoose target

end TensorGraph.Shape
