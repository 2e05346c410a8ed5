import TensorGraph.Shape.OfValue

/-!
Windows that slide over the last two axes, as in convolutions and pooling.
-/

namespace TensorGraph.Shape

/-- A pair of values: one value stands for both. -/
def pairOf (value : Value) (name : String) : Except Error (Value × Value) :=
  match value with
  | .int n => .ok (.int n, .int n)
  | .bool b => .ok (.bool b, .bool b)
  | value => do
    match ← orError value.items? (.fault .wrongForm) with
    | [v] => .ok (v, v)
    | [v, w] => .ok (v, w)
    | values => .error (.shape (.notPair name values))

/-- A loose value in arithmetic: truth values count as one and zero. -/
def wholeNumber : Value → Except Error Int
  | .int n => .ok n
  | .bool b => .ok (if b then 1 else 0)
  | _ => failWith .wrongForm

/-- Two loose values in arithmetic. -/
def wholePair (pair : Value × Value) : Except Error (Int × Int) := do
  return (← wholeNumber pair.1, ← wholeNumber pair.2)

/-- How many windows fit along an axis. -/
def windowCount (size : Nat) (kernel stride padding dilation : Int) : Int :=
  Int.fdiv (size + 2 * padding - dilation * (kernel - 1) - 1) stride + 1

/-- The numbers of windows along the last two axes. -/
def slidingWindow (input : Shape) (kernel stride padding dilation : Value) :
    Except Error (Nat × Nat) :=
  match input.dims.reverse with
  | width :: height :: _ => do
    let kernel ← pairOf kernel "kernel_size"
    let stride ← pairOf stride "stride"
    let padding ← pairOf padding "padding"
    let dilation ← pairOf dilation "dilation"
    let strides ← wholePair stride
    if min strides.1 strides.2 ≤ 0 then .error (.shape (.windowStep stride dilation))
    let dilations ← wholePair dilation
    if min dilations.1 dilations.2 ≤ 0 then .error (.shape (.windowStep stride dilation))
    let kernels ← wholePair kernel
    let paddings ← wholePair padding
    let rows := windowCount height kernels.1 strides.1 paddings.1 dilations.1
    if rows < 1 then .error (.shape (.windowTooLarge kernel input))
    let columns := windowCount width kernels.2 strides.2 paddings.2 dilations.2
    if columns < 1 then .error (.shape (.windowTooLarge kernel input))
    return (rows.toNat, columns.toNat)
  | _ => .error (.shape (.windowRank input))

end TensorGraph.Shape
