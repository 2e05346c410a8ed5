import TensorGraph.Shape.Broadcast

/-!
Shapes of matrix products. The last two axes are the matrix, all others the batch.
-/

namespace TensorGraph.Shape

/-- The extents of the batch, and the rows and columns of the matrix. -/
structure MatrixView where
  batch : List Nat
  rows : Nat
  columns : Nat
deriving Repr

/-- A shape as a batch of matrices; a vector as one row, on the left, or as one column, on the
right. -/
def matrixView? (isLeft : Bool) (s : Shape) : Option MatrixView :=
  match s.dims.reverse with
  | [] => none
  | [k] => some (if isLeft then ⟨[], 1, k⟩ else ⟨[], k, 1⟩)
  | n :: m :: batch => some ⟨batch.reverse, m, n⟩

/-- The batch of a product: none if both operands are single matrices; else an operand without a
batch stretches like a batch of one. -/
def productBatch (a b : Shape) (batchA batchB : List Nat) : Except Error (List Nat) :=
  if a.rank ≤ 2 ∧ b.rank ≤ 2 then .ok []
  else do
    let stretch (s : Shape) (batch : List Nat) : Shape := if s.rank ≤ 2 then ⟨[1]⟩ else ⟨batch⟩
    return (← broadcast (stretch a batchA) (stretch b batchB)).dims

/-- The shape of a product of two operands. The axis that a vector was given for the product is
dropped from the result. -/
def matrixProduct (a b : Shape) : Except Error Shape :=
  match matrixView? true a, matrixView? false b with
  | some left, some right =>
    if left.columns ≠ right.rows then
      .error (.shape (.productInner left.columns right.rows a b))
    else do
      let batch ← productBatch a b left.batch right.batch
      let rows := if a.rank = 1 then [] else [left.rows]
      let columns := if b.rank = 1 then [] else [right.columns]
      return ⟨batch ++ rows ++ columns⟩
  | _, _ => .error (.shape (.productRank a b))

end TensorGraph.Shape
