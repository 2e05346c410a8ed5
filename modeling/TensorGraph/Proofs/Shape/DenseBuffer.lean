import Mathlib.Data.Set.Function
import TensorGraph.Proofs.Shape.Addressing

/-!
Dense buffers. The index of the element at a position is read back off the position: its places are
the digits, divided off from the front where the last axis varies fastest, and from the back where
the first one does. So a buffer has neither a position without an element nor a position that two
elements share, in both layouts and for any extents.
-/

namespace TensorGraph.Shape

variable {dims : List Nat} {s : Shape} {p : Nat}

/-- The places that lead to a position where the last axis varies fastest. All that a place along
the first axis passes over is one block of the other axes. -/
def rowPlaces : List Nat → Nat → List Nat
  | [], _ => []
  | _ :: dims, p => p / product dims :: rowPlaces dims (p % product dims)

/-- The places that lead to a position where the first axis varies fastest. -/
def columnPlaces : List Nat → Nat → List Nat
  | [], _ => []
  | d :: dims, p => p % d :: columnPlaces dims (p / d)

@[simp] theorem rowPlaces_cons (d : Nat) (dims : List Nat) (p : Nat) :
    rowPlaces (d :: dims) p = p / product dims :: rowPlaces dims (p % product dims) := rfl

@[simp] theorem columnPlaces_cons (d : Nat) (dims : List Nat) (p : Nat) :
    columnPlaces (d :: dims) p = p % d :: columnPlaces dims (p / d) := rfl

/-- The index of the element at a position. -/
def indexAt (s : Shape) (p : Nat) : Layout → List Nat
  | .rowMajor => rowPlaces s.dims p
  | .columnMajor => columnPlaces s.dims p

theorem inside_rowPlaces (below : p < product dims) : inside dims (rowPlaces dims p) = true := by
  induction dims generalizing p with
  | nil => rfl
  | cons d dims ih =>
    have block_pos : 0 < product dims := Nat.pos_of_lt_mul_left below
    have place_lt : p / product dims < d := (Nat.div_lt_iff_lt_mul block_pos).2 below
    simp [place_lt, ih (Nat.mod_lt p block_pos)]

theorem inside_columnPlaces (below : p < product dims) :
    inside dims (columnPlaces dims p) = true := by
  induction dims generalizing p with
  | nil => rfl
  | cons d dims ih =>
    have extent_pos : 0 < d := Nat.pos_of_lt_mul_right below
    have rest_lt : p / d < product dims := Nat.div_lt_of_lt_mul below
    simp [Nat.mod_lt p extent_pos, ih rest_lt]

theorem offset_rowPlaces (below : p < product dims) :
    offset (rowPlaces dims p) (rowStrides dims) = p := by
  induction dims generalizing p with
  | nil =>
    have zero : p = 0 := Nat.lt_one_iff.1 below
    rw [zero]
    rfl
  | cons d dims ih =>
    have block_pos : 0 < product dims := Nat.pos_of_lt_mul_left below
    rw [rowPlaces_cons, rowStrides, offset_cons, ih (Nat.mod_lt p block_pos)]
    exact Nat.div_add_mod' p (product dims)

theorem columnPosition_columnPlaces (below : p < product dims) :
    columnPosition dims (columnPlaces dims p) = p := by
  induction dims generalizing p with
  | nil =>
    have zero : p = 0 := Nat.lt_one_iff.1 below
    rw [columnPosition_nil, zero]
  | cons d dims ih =>
    rw [columnPlaces_cons, columnPosition_cons, ih (Nat.div_lt_of_lt_mul below)]
    exact Nat.mod_add_div p d

theorem inside_indexAt (below : p < s.size) (layout : Layout) :
    inside s.dims (s.indexAt p layout) = true := by
  cases layout with
  | rowMajor => exact inside_rowPlaces below
  | columnMajor => exact inside_columnPlaces below

/-- The index at a position leads there. -/
theorem offset_indexAt (below : p < s.size) (layout : Layout) :
    offset (s.indexAt p layout) (s.strides layout) = p := by
  cases layout with
  | rowMajor => exact offset_rowPlaces below
  | columnMajor =>
    rw [indexAt, strides, offset_columnStrides, columnPosition_columnPlaces below, Nat.one_mul]

/-- **Every position has one index.** In either layout the strides lead from the indices inside the
extents to the positions below the number of elements, each position being that of exactly one
index. -/
theorem offset_bijOn (s : Shape) (layout : Layout) :
    Set.BijOn (fun index => offset index (s.strides layout))
      {index | inside s.dims index = true} {p | p < s.size} := by
  refine ⟨?into, ?injective, ?onto⟩
  case into =>
    intro index within
    have bound := position_lt within layout
    rwa [position_eq_offset within] at bound
  case injective =>
    intro index within other within' same
    have same_position : s.position index layout = s.position other layout := by
      rw [position_eq_offset within, position_eq_offset within']
      exact same
    exact eq_of_position_eq within within' same_position
  case onto =>
    intro p below
    exact ⟨s.indexAt p layout, inside_indexAt below layout, offset_indexAt below layout⟩

end TensorGraph.Shape
