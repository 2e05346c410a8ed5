import TensorGraph.Tensor.View

/-!
Assigning values to a part of an array. A list of values is a block: its lists have to nest evenly
and no deeper than the part has axes. A block of the extents of the part is written element by
element; any other is converted as a whole and then repeated along the axes where it has one place
and the part has more.
-/

namespace TensorGraph

/-- Values with extents, the last axis varying fastest. -/
structure Block where
  dims : List Nat
  values : List Value
deriving Repr

namespace Block

/-- Blocks behind each other along a new first axis; they have to agree in their extents. -/
def stack : List Block → Option Block
  | [] => some ⟨[0], []⟩
  | b :: rest =>
    if rest.all fun other => other.dims = b.dims then
      some ⟨(rest.length + 1) :: b.dims, b.values ++ rest.flatMap Block.values⟩
    else none

mutual

/-- The block that a value stands for, which may have this many axes. -/
def ofValue (depth : Nat) : Value → Option Block
  | .list items => ofItems depth items
  | .tuple items => ofItems depth items
  | value => some ⟨[], [value]⟩

def ofItems (depth : Nat) (items : List Value) : Option Block :=
  match depth with
  | 0 => none
  | depth + 1 => (blocks depth items).bind stack

def blocks (depth : Nat) : List Value → Option (List Block)
  | [] => some []
  | item :: rest => do
    let b ← ofValue depth item
    let more ← blocks depth rest
    some (b :: more)

end

/-- Whether the extents can be repeated to reach others: counted from the last axis, each is one
or the same. -/
def reaches (dims target : List Nat) : Bool :=
  dims.length ≤ target.length &&
    (dims.reverse.zip target.reverse).all fun (d, e) => d = 1 || d = e

/-- The position in a block that an index of the repeated extents reads. -/
def source (dims index : List Nat) : Nat :=
  let last := index.drop (index.length - dims.length)
  Shape.rowPosition 0 dims ((dims.zip last).map fun (d, i) => if d = 1 then 0 else i)

end Block

namespace Tensor

/-- Writes values to elements one after the other and stops at the first that does not fit; the
elements before it stay written. -/
def writeEach (t : Tensor) : List (List Nat × Value) → Tensor × Except Error Unit
  | [] => (t, .ok ())
  | (index, value) :: rest =>
    match t.elementType.encode value with
    | .error e => (t, .error e)
    | .ok bytes => (t.write index bytes).writeEach rest

/-- Writes a block to the part of the array behind some leading places. -/
def writeBlock (t : Tensor) (lead : List Nat) (b : Block) : Tensor × Except Error Unit :=
  let dims := t.shape.dims.drop lead.length
  let part := Shape.indices dims
  if b.dims = dims then t.writeEach ((part.map (lead ++ ·)).zip b.values)
  else
    match b.values.mapM t.elementType.encode with
    | .error e => (t, .error e)
    | .ok windows =>
      if Block.reaches b.dims dims then
        (part.foldl (fun t index =>
          t.write (lead ++ index) (windows.getD (Block.source b.dims index) [])) t, .ok ())
      else (t, failWith .badValue)

/-- Assigns a value to the part of the array behind some leading places. -/
def assign (t : Tensor) (lead : List Nat) (value : Value) : Tensor × Except Error Unit :=
  match Block.ofValue (t.shape.rank - lead.length) value with
  | some b => t.writeBlock lead b
  | none => (t, failWith .badValue)

def fill (t : Tensor) (asked : ElementType) (value : Value) : Tensor × Except Error Unit :=
  match t.checkView asked with
  | .error e => (t, .error e)
  | .ok () => t.assign [] value

/-- Assigns a value to the element or the part that places along the leading axes name. A single
element takes the value as it is, never as a block. -/
def put (t : Tensor) (asked : ElementType) (index : List Int) (value : Value) :
    Tensor × Except Error Unit :=
  match (do t.checkView asked; Shape.places t.shape.dims index) with
  | .error e => (t, .error e)
  | .ok lead =>
    if lead.length = t.shape.rank then t.writeEach [(lead, value)] else t.assign lead value

end Tensor

end TensorGraph
