import TensorGraph.Operation.Attributes
import TensorGraph.Tensor.Reference

/-!
Operations: one step of a computation, given by its kind, its inputs and its attributes.
-/

namespace TensorGraph

/-- An operation. An input may be missing; the output is unknown until it is inferred or set. -/
structure Operation where
  kind : OperationKind
  inputs : List (Option Reference) := []
  attributes : Attributes := .empty
  output : Option Reference := none
  /-- The name of the operation in documents. -/
  id : Value := .text ""
  /-- The element type to use where no input decides it. -/
  elementType : Option ElementType := none
  /-- Where the operation runs. -/
  device : Value := .text ""

namespace Operation

/-- Whether no input is missing and there are as many as the kind takes. -/
def validate (op : Operation) : Bool :=
  (match op.kind.inputCount? with
  | some n => op.inputs.length == n
  | none => true) && op.inputs.all Option.isSome

def setAttribute (op : Operation) (key : String) (value : Value) : Except Error Operation := do
  return { op with attributes := ← op.attributes.set key value }

/-- The operation as documents hold it. Texts that are empty and a hint that is missing are left
out. -/
def toRecord (op : Operation) : Entries Value :=
  [("kind", .text op.kind.name), ("attrs", op.attributes.toRecord)] ++
    (if op.id.isPresent then [("id", op.id)] else []) ++
    (match op.elementType with
    | some t => [("dtype", .text t.name)]
    | none => []) ++
    (if op.device.isPresent then [("device", op.device)] else [])

/-- The kind, followed by the types of the inputs and the attributes. -/
def text (op : Operation) : String :=
  let inputs := op.inputs.map fun input =>
    match input with
    | some r => r.typeText
    | none => "?"
  let attributes := op.attributes.entries.map fun entry =>
    entry.1 ++ "=" ++ entry.2.toValue.plain
  op.kind.name ++ "(" ++ String.intercalate ", " (inputs ++ attributes) ++ ")"

end Operation

end TensorGraph
