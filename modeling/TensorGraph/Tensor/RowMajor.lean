import TensorGraph.ElementType.Notation
import TensorGraph.Tensor.View

/-!
Tensors from foreign arrays. The elements are copied so that the last axis varies fastest, whatever
the order was in which the array held them; each keeps its bytes.
-/

namespace TensorGraph

namespace Tensor

/-- The bytes of all elements, the last axis varying fastest. -/
def gathered (t : Tensor) : List UInt8 := (Shape.indices t.shape.dims).flatMap t.window

theorem length_gathered (t : Tensor) :
    t.gathered.length = t.shape.size * t.elementType.size := by
  have constant : ∀ indices : List (List Nat),
      (∀ index ∈ indices, Shape.inside t.shape.dims index = true) →
      (indices.flatMap t.window).length = indices.length * t.elementType.size := by
    intro indices
    induction indices with
    | nil => simp
    | cons index rest ih =>
      intro h
      have first := length_window (h index List.mem_cons_self)
      have others := ih fun other member => h other (List.mem_cons_of_mem _ member)
      rw [List.flatMap_cons, List.length_append, first, others, List.length_cons, Nat.succ_mul,
        Nat.add_comm]
  rw [gathered, constant _ fun index member => Shape.mem_indices.1 member, Shape.length_indices,
    Shape.size]

/-- The same elements in a buffer where the last axis varies fastest. -/
def toRowMajor (t : Tensor) : Tensor :=
  ⟨t.shape, t.elementType, .rowMajor, t.gathered, t.length_gathered⟩

/-- The same elements along at least one axis. -/
def withAxis (t : Tensor) : Tensor :=
  if h : t.shape.dims = [] then
    { t with shape := ⟨[1]⟩, length_eq := by rw [t.length_eq]; simp [Shape.size, h] }
  else t

/-- The tensor with the elements of a foreign array, of which the bytes, the extents and the order
are given. The bytes have to be whole items, as many as the extents ask for, and the type of the
items has to be an element type. -/
def ofArray (type : ArrayType) (shape : Shape) (layout : Layout) (bytes : List UInt8) :
    Except Error Tensor := do
  if !type.isReadable || bytes.length != shape.size * type.size || !shape.isIndexable type.size then
    failWith .badValue
  let elementType ← orError type.elementType? (.tensor (.unsupportedArray type.name))
  let t ← ofBytes shape elementType bytes layout
  return t.toRowMajor.withAxis

end Tensor

end TensorGraph
