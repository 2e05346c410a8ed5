import TensorGraph.Shape.Axis

/-!
Shapes rewritten axis by axis: axes of extent one are removed and put in, axes are permuted, and
neighbouring ones are joined.
-/

namespace TensorGraph.Shape

/-- The shape without its axes of extent one. -/
def squeezeAll (s : Shape) : Shape := ⟨s.dims.filter (· ≠ 1)⟩

/-- The shape without the axis that a number names, if that has extent one; else the shape
itself. -/
def squeeze (s : Shape) (index : Int) : Except Error Shape := do
  let k ← s.axis index
  return if s.dimAt k = 1 then ⟨s.dims.eraseIdx k⟩ else s

/-- The shape with an axis of extent one put in. The new axis may be the last one. -/
def unsqueeze (s : Shape) (index : Int) : Except Error Shape := do
  let k ← s.axisAmong (s.rank + 1) index
  return ⟨s.dims.insertIdx k 1⟩

/-- Checks the entries of a permutation in order: each names an axis, and none does so twice. -/
def checkPermutation (rank : Nat) : List Int → List Int → Except Error Unit
  | _, [] => .ok ()
  | seen, p :: rest =>
    if p < 0 ∨ (rank : Int) ≤ p then .error (.shape (.permutationIndex p))
    else if p ∈ seen then .error (.shape (.permutationRepeat p))
    else checkPermutation rank (p :: seen) rest

/-- The shape with its axes in another order: each entry names the axis that comes there. -/
def permute (s : Shape) (permutation : List Int) : Except Error Shape :=
  if permutation.length ≠ s.rank then
    .error (.shape (.permutationLength s.rank permutation))
  else do
    checkPermutation s.rank [] permutation
    return ⟨permutation.map fun p => s.dimAt p.toNat⟩

/-- The extents with the last two exchanged. -/
def swapLast (dims : List Nat) : List Nat :=
  match dims.reverse with
  | n :: m :: rest => (m :: n :: rest).reverse
  | _ => dims

/-- The shape with its last two axes exchanged. -/
def transpose (s : Shape) : Except Error Shape :=
  if s.rank < 2 then .error (.shape (.transposeRank s)) else .ok ⟨swapLast s.dims⟩

/-- The shape with the axes from one to another, both included, joined into one. -/
def flatten (s : Shape) (start stop : Int) : Except Error Shape := do
  let first ← s.axis start
  let last ← s.axis stop
  if last < first then .error (.shape (.flattenOrder start stop))
  else
    let joined := (s.dims.drop first).take (last + 1 - first)
    return ⟨s.dims.take first ++ product joined :: s.dims.drop (last + 1)⟩

/-- Exchanging the last two extents twice changes nothing. -/
theorem swapLast_swapLast (dims : List Nat) : swapLast (swapLast dims) = dims := by
  obtain ⟨reversed, rfl⟩ : ∃ reversed : List Nat, dims = reversed.reverse :=
    ⟨dims.reverse, (List.reverse_reverse dims).symm⟩
  match reversed with
  | [] => rfl
  | [_] => rfl
  | n :: m :: rest => simp only [swapLast, List.reverse_reverse]

end TensorGraph.Shape
