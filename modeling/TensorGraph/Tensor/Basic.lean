import TensorGraph.Shape.Strides
import TensorGraph.Tensor.Reference

/-!
Tensors: a shape and an element type together with the bytes of all elements. The type holds that
the bytes are as many as shape and element type ask for.
-/

namespace TensorGraph

/-- A tensor with its bytes. -/
structure Tensor where
  shape : Shape
  elementType : ElementType
  layout : Layout
  bytes : List UInt8
  length_eq : bytes.length = shape.size * elementType.size
deriving DecidableEq, Repr

namespace Tensor

/-- The tensor whose bytes are all zero. -/
def zero (shape : Shape) (elementType : ElementType) (layout : Layout) : Tensor :=
  ⟨shape, elementType, layout, List.replicate (shape.size * elementType.size) 0,
    List.length_replicate⟩

/-- The tensor of zeros; the number of its bytes has to fit a signed word. -/
def zeros (shape : Shape) (elementType : ElementType) (layout : Layout) : Except Error Tensor :=
  if shape.size * elementType.size < wordLimit then .ok (zero shape elementType layout)
  else failWith .overflow

/-- The tensor with given bytes, which have to be as many as its elements take. -/
def ofBytes (shape : Shape) (elementType : ElementType) (bytes : List UInt8) (layout : Layout) :
    Except Error Tensor :=
  if h : bytes.length = shape.size * elementType.size then
    .ok ⟨shape, elementType, layout, bytes, h⟩
  else
    .error (.tensor (.dataSize elementType shape (shape.size * elementType.size) bytes.length))

def byteSize (t : Tensor) : Nat := t.bytes.length

/-- How far apart neighbours along each axis lie, in elements. -/
def strides (t : Tensor) : List Nat := t.shape.strides t.layout

/-- Whether the strides are those of a dense buffer. -/
def isContiguous (t : Tensor) : Bool :=
  t.shape.isContiguous (t.strides.map Int.ofNat) t.layout

def digest (t : Tensor) : Except Error Digest := Digest.compute t.shape t.elementType t.bytes

def verify (t : Tensor) (expected : Digest) : Except Error Bool :=
  return (← t.digest) == expected

def reference (t : Tensor) : Except Error Reference :=
  return ⟨t.shape, t.elementType, ← t.digest⟩

/-- The same tensor with one byte replaced. A position below zero counts from the end. The
position has to fit a signed word before the byte is looked at, and the buffer after it. -/
def setByte (t : Tensor) (position value : Int) : Except Error Tensor :=
  if position < -wordLimit ∨ wordLimit ≤ position then failWith .indexOutOfRange
  else if value < 0 ∨ 256 ≤ value then failWith .badValue
  else
    let k := if position < 0 then position + t.bytes.length else position
    if k < 0 ∨ t.bytes.length ≤ k then failWith .indexOutOfRange
    else .ok { t with
      bytes := t.bytes.set k.toNat (UInt8.ofNat value.toNat)
      length_eq := by rw [List.length_set, t.length_eq] }

/-- A tensor as text, without its elements. -/
def text (t : Tensor) : String :=
  "TensorData(shape=" ++ t.shape.text ++ ", dtype=" ++ t.elementType.name ++ ", layout=" ++
    t.layout.name ++ ")"

end Tensor

end TensorGraph
