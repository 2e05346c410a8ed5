import TensorGraph.Shape.Basic

/-!
Strides: how far apart in a dense buffer two elements lie that are neighbours along an axis.
-/

namespace TensorGraph.Shape

/-- Strides where the last axis varies fastest: along each axis the elements of all later ones
lie between two neighbours. -/
def rowStrides : List Nat → List Nat
  | [] => []
  | _ :: rest => product rest :: rowStrides rest

/-- Strides where the first axis varies fastest, of which one step along the first axis spans
`step` elements. -/
def columnStrides : Nat → List Nat → List Nat
  | _, [] => []
  | step, d :: rest => step :: columnStrides (step * d) rest

def strides (s : Shape) : Layout → List Nat
  | .rowMajor => rowStrides s.dims
  | .columnMajor => columnStrides 1 s.dims

/-- Whether strides are those of a dense buffer. An axis with at most one position takes any
stride, and a scalar takes any strides. -/
def isContiguous (s : Shape) (given : List Int) (layout : Layout) : Bool :=
  s.rank == 0 || (given.length == s.rank &&
    (s.dims.zip (given.zip (s.strides layout))).all fun (d, stride, dense) =>
      d ≤ 1 || stride == dense)

@[simp] theorem length_rowStrides (dims : List Nat) : (rowStrides dims).length = dims.length := by
  induction dims with
  | nil => rfl
  | cons d rest ih => simp [rowStrides, ih]

@[simp] theorem length_columnStrides (step : Nat) (dims : List Nat) :
    (columnStrides step dims).length = dims.length := by
  induction dims generalizing step with
  | nil => rfl
  | cons d rest ih => simp [columnStrides, ih]

@[simp] theorem length_strides (s : Shape) (layout : Layout) :
    (s.strides layout).length = s.rank := by
  cases layout <;> simp [strides, rank]

end TensorGraph.Shape
