import TensorGraph.Error

/-!
Axes by number. A number below zero counts from the end.
-/

namespace TensorGraph.Shape

/-- The axis that a number names among this many axes. -/
def axisAmong (s : Shape) (count index : Int) : Except Error Nat :=
  let position := if index < 0 then index + count else index
  if position < 0 ∨ count ≤ position then .error (.shape (.axis s index)) else .ok position.toNat

/-- The axis of the shape that a number names. -/
def axis (s : Shape) (index : Int) : Except Error Nat := s.axisAmong s.rank index

/-- The extent along an axis; an axis that is missing has extent zero. -/
def dimAt (s : Shape) (axis : Nat) : Nat := s.dims.getD axis 0

/-- The extent along the axis that a number names. -/
def extent (s : Shape) (index : Int) : Except Error Nat := return s.dimAt (← s.axis index)

/-- An end of a slice, moved into the range of its positions. -/
def clampEnd (length low high : Int) (position : Int) : Int :=
  let position := if position < 0 then position + length else position
  max low (min high position)

/-- The positions of a slice, in the order of its steps. -/
def slicePositions (length : Nat) (start stop : Option Int) (step : Int) : List Nat :=
  let up := decide (0 < step)
  let low : Int := if up then 0 else -1
  let high : Int := if up then length else length - 1
  let first := (start.map (clampEnd length low high)).getD (if up then low else high)
  let last := (stop.map (clampEnd length low high)).getD (if up then high else low)
  let distance := if up then last - first else first - last
  let count := if distance ≤ 0 then 0 else ((distance - 1) / (step.natAbs : Int) + 1).toNat
  (List.range count).map fun (k : Nat) => (first + k * step).toNat

/-- The extents of a slice of the axes. A step of zero is refused. -/
def slice (s : Shape) (start stop step : Option Int) : Except Error (List Nat) :=
  let step := step.getD 1
  if step = 0 then failWith .badValue
  else .ok ((slicePositions s.rank start stop step).map s.dimAt)

end TensorGraph.Shape
