/-!
Shapes: the extents of a tensor along its axes.
-/

namespace TensorGraph

/-- The first natural that does not fit a signed word. -/
def wordLimit : Nat := Nat.pow 2 63

/-- The extents of a tensor, the outermost axis first. -/
structure Shape where
  dims : List Nat
deriving DecidableEq, Repr, Inhabited

/-- How the elements of a dense buffer follow each other. -/
inductive Layout where
  /-- The last axis varies fastest. -/
  | rowMajor
  /-- The first axis varies fastest. -/
  | columnMajor
deriving DecidableEq, Repr, Inhabited

def Layout.name : Layout → String
  | .rowMajor => "row_major"
  | .columnMajor => "column_major"

namespace Shape

def scalar : Shape := ⟨[]⟩

def rank (s : Shape) : Nat := s.dims.length

/-- The product of extents. -/
def product (dims : List Nat) : Nat := dims.foldr (· * ·) 1

@[simp] theorem product_nil : product [] = 1 := rfl

@[simp] theorem product_cons (d : Nat) (dims : List Nat) :
    product (d :: dims) = d * product dims := rfl

/-- The number of elements; a scalar has one. -/
def size (s : Shape) : Nat := product s.dims

def isScalar (s : Shape) : Bool := s.rank == 0

def isVector (s : Shape) : Bool := s.rank == 1

def isMatrix (s : Shape) : Bool := s.rank == 2

/-- The extents between round brackets. -/
def text (s : Shape) : String := "(" ++ String.intercalate ", " (s.dims.map toString) ++ ")"

end Shape

end TensorGraph
