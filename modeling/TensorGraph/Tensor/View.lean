import TensorGraph.Shape.Position
import TensorGraph.Tensor.Basic
import TensorGraph.Tensor.Element

/-!
Tensors seen as arrays of elements. The window of an element is the run of bytes at its position;
writing an element replaces its window and keeps the number of bytes.
-/

namespace TensorGraph

/-- The most axes that an array can have. -/
def maxRank : Nat := 64

/-- Whether an array can have a shape: each extent has to fit a signed word, and so does the
number of bytes, where an axis without positions does not count. -/
def Shape.isIndexable (s : Shape) (itemSize : Nat) : Bool :=
  s.rank ≤ maxRank && s.dims.all (· < wordLimit) &&
    product (s.dims.filter (· ≠ 0)) * itemSize < wordLimit

/-- Bytes with a run of them replaced. What would lie behind the end is left out. -/
def overwrite : List UInt8 → Nat → List UInt8 → List UInt8
  | [], _, _ => []
  | b :: rest, start + 1, new => b :: overwrite rest start new
  | b :: rest, 0, [] => b :: rest
  | _ :: rest, 0, c :: new => c :: overwrite rest 0 new

@[simp] theorem length_overwrite (bytes : List UInt8) (start : Nat) (new : List UInt8) :
    (overwrite bytes start new).length = bytes.length := by
  fun_induction overwrite bytes start new with
  | case1 => rfl
  | case2 _ _ _ _ ih => simp [ih]
  | case3 => rfl
  | case4 _ _ _ _ ih => simp [ih]

/-- Values as lists inside lists, one depth for each extent. -/
def nested : List Nat → (List Nat → Value) → Value
  | [], f => f []
  | d :: dims, f => .list ((List.range d).map fun i => nested dims fun index => f (i :: index))

namespace Tensor

/-- Where the bytes of an element start. -/
def start (t : Tensor) (index : List Nat) : Nat :=
  t.elementType.size * t.shape.position index t.layout

/-- The bytes of an element. -/
def window (t : Tensor) (index : List Nat) : List UInt8 :=
  (t.bytes.drop (t.start index)).take t.elementType.size

def element (t : Tensor) (index : List Nat) : Value := t.elementType.decode (t.window index)

/-- The same tensor with the bytes of one element replaced. -/
def write (t : Tensor) (index : List Nat) (bytes : List UInt8) : Tensor :=
  { t with
    bytes := overwrite t.bytes (t.start index) bytes
    length_eq := by rw [length_overwrite, t.length_eq] }

/-- Fails unless the tensor can be seen as an array of a type: it has to be the type of its
elements, which has to be a type of numbers that arrays know. -/
def checkView (t : Tensor) (asked : ElementType) : Except Error Unit :=
  if asked ≠ t.elementType then .error (.tensor (.otherElementType t.elementType asked))
  else if !asked.hasView then .error (.tensor (.noView asked))
  else if !t.shape.isIndexable t.elementType.size then failWith .badValue
  else .ok ()

/-- All elements, as lists inside lists. -/
def array (t : Tensor) (asked : ElementType) : Except Error Value := do
  t.checkView asked
  return nested t.shape.dims t.element

/-- The window of an element inside the extents lies inside the buffer. -/
theorem start_add_size_le {t : Tensor} {index : List Nat}
    (h : Shape.inside t.shape.dims index = true) :
    t.start index + t.elementType.size ≤ t.bytes.length := by
  have bound := Shape.position_lt h t.layout
  rw [t.length_eq, start, Nat.mul_comm t.shape.size]
  calc t.elementType.size * t.shape.position index t.layout + t.elementType.size
      = t.elementType.size * (t.shape.position index t.layout + 1) := by rw [Nat.mul_succ]
    _ ≤ t.elementType.size * t.shape.size := Nat.mul_le_mul_left _ bound

/-- The window of an element is as long as its type is wide. -/
theorem length_window {t : Tensor} {index : List Nat}
    (h : Shape.inside t.shape.dims index = true) :
    (t.window index).length = t.elementType.size := by
  have bound := start_add_size_le h
  simp only [window, List.length_take, List.length_drop]
  omega

end Tensor

end TensorGraph
