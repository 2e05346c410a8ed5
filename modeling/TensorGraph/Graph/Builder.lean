import TensorGraph.Graph.Basic
import TensorGraph.Operation.ResultType

/-!
Building a graph step by step. A node without a name is named for what it is and numbered; the
numbers go on even where a step fails.
-/

namespace TensorGraph

/-- A graph under construction, and the number of the next node without a name. -/
structure Builder where
  graph : Graph
  next : Nat := 0

namespace Builder

/-- The name given, or a fresh one. -/
def nameFor (b : Builder) (name stem : String) : String × Builder :=
  if name = "" then (stem ++ "_" ++ toString b.next, { b with next := b.next + 1 }) else (name, b)

def tensorOf (b : Builder) (name : String) : Except Error (Option Reference) :=
  match b.graph.node? name with
  | some n => .ok n.tensor
  | none => .error (.graph (.unknownNode name b.graph.name))

/-- Adds a node and answers its name. -/
def addNode (b : Builder) (n : Node) : Builder × Except Error String :=
  match b.graph.add n with
  | .ok graph => ({ b with graph }, .ok n.name)
  | .error e => (b, .error e)

/-- A step that ends with adding a node, if a node can be made. -/
def finish (b : Builder) (n : Except Error Node) : Builder × Except Error String :=
  match n with
  | .ok n => b.addNode n
  | .error e => (b, .error e)

/-- Adds an input node; without a name it gets a fresh one. -/
def addInput (b : Builder) (tensor : Option Reference) (name : String) :
    Builder × Except Error String :=
  let (name, b) := b.nameFor name "input"
  b.addNode { name, kind := .input, tensor }

/-- Adds a constant; without a name it gets a fresh one. -/
def addConst (b : Builder) (tensor : Option Reference) (name : String) :
    Builder × Except Error String :=
  let (name, b) := b.nameFor name "const"
  b.addNode { name, kind := .const, tensor }

/-- The node of an operation on nodes; shape and element type are inferred unless given. -/
def operationNode (setting : Option String) (b : Builder) (kind : OperationKind)
    (inputs : List String) (shape : Option Shape) (elementType : Option ElementType)
    (attributes : Entries Value) (name : String) : Except Error Node := do
  let references ← inputs.mapM b.tensorOf
  let attributes ← Attributes.ofValues attributes
  let op : Operation := { kind, inputs := references, attributes, id := .text name, elementType }
  let shape ← match shape with
    | some s => pure s
    | none => op.resultShape
  let elementType ← match elementType with
    | some t => pure t
    | none => op.resultType setting
  let output := some (Reference.empty shape elementType)
  return { name, kind := .op, operation := some { op with output }, inputs, tensor := output }

/-- Adds an operation on nodes that exist. -/
def addOperation (setting : Option String) (b : Builder) (kind : OperationKind)
    (inputs : List String) (shape : Option Shape) (elementType : Option ElementType)
    (attributes : Entries Value) (name : String) : Builder × Except Error String :=
  let (name, b) := b.nameFor name kind.name
  b.finish (b.operationNode setting kind inputs shape elementType attributes name)

/-- Adds an output of an existing node, with the tensor of that node. -/
def addOutput (b : Builder) (input name : String) : Builder × Except Error String :=
  match b.tensorOf input with
  | .ok tensor =>
    let (name, b) := b.nameFor name "output"
    b.addNode { name, kind := .output, inputs := [input], tensor }
  | .error e => (b, .error e)

end Builder

end TensorGraph
