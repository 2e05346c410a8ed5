import TensorGraph.Error

/-!
Broadcasting: two shapes are aligned at their last axes, and an axis of extent one, or a missing
one, stretches to the extent of the other operand.
-/

namespace TensorGraph.Shape

/-- The extents of two shapes side by side, both listed from the last axis. A missing axis counts
as one of extent one. -/
def aligned : List Nat → List Nat → List (Nat × Nat)
  | [], bs => bs.map fun b => (1, b)
  | a :: as, [] => (a, 1) :: aligned as []
  | a :: as, b :: bs => (a, b) :: aligned as bs

/-- Whether two extents fit: they are equal, or one of them stretches. -/
def fits (pair : Nat × Nat) : Bool := pair.1 == pair.2 || pair.1 == 1 || pair.2 == 1

/-- Two shapes side by side, from the last axis. -/
def align (a b : Shape) : List (Nat × Nat) := aligned a.dims.reverse b.dims.reverse

/-- Whether all aligned extents fit. -/
def isBroadcastable (a b : Shape) : Bool := (align a b).all fits

/-- The shape to which two shapes stretch together. Of two extents that fit, the larger one is
kept, so an extent of one beside an extent of zero stays one. -/
def broadcast (a b : Shape) : Except Error Shape :=
  if isBroadcastable a b then
    .ok ⟨((align a b).map fun pair => max pair.1 pair.2).reverse⟩
  else .error (.shape (.notBroadcastable a b))

/-- The target, provided that the shape stretches to exactly that. -/
def broadcastTo (source target : Shape) : Except Error Shape :=
  if isBroadcastable source target then do
    let result ← broadcast source target
    if result = target then .ok target
    else .error (.shape (.otherResult source target result))
  else .error (.shape (.unreachable source target))

theorem aligned_comm (as bs : List Nat) :
    aligned bs as = (aligned as bs).map Prod.swap := by
  induction as generalizing bs with
  | nil =>
    induction bs with
    | nil => rfl
    | cons b bs ih => simp [aligned, ih]
  | cons a as ih =>
    cases bs with
    | nil => simp [aligned, ← ih []]
    | cons b bs => simp [aligned, ih]

/-- Which operand comes first does not matter. -/
theorem isBroadcastable_comm (a b : Shape) : isBroadcastable a b = isBroadcastable b a := by
  simp only [isBroadcastable, align]
  rw [aligned_comm a.dims.reverse b.dims.reverse, List.all_map]
  congr 1
  funext pair
  simp only [fits, Function.comp, Prod.fst_swap, Prod.snd_swap]
  grind

end TensorGraph.Shape
