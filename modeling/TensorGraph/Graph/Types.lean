import TensorGraph.Graph.Order
import TensorGraph.Operation.ResultType

/-!
Types of all nodes, from the tensors of the input nodes and constants.
-/

namespace TensorGraph.Graph

/-- The type of a node, from the types of the nodes before it. -/
def typeOf (setting : Option String) (types : OrderedMap Reference) (n : Node) :
    Except Error Reference :=
  match n.kind with
  | .op =>
    match n.operation with
    | some op => Operation.result setting { op with inputs := n.inputs.map types.get? }
    | none => .error (.graph (.noOperation n.name))
  | .output => orError (n.inputs.filterMap types.get?).head? (.graph (.noInputType n.name))
  | kind => orError n.tensor (.graph (.noTensor kind n.name))

def addType (setting : Option String) (g : Graph) (types : OrderedMap Reference) (name : String) :
    Except Error (OrderedMap Reference) :=
  match g.node? name with
  | some n => do return types.put name (← typeOf setting types n)
  | none => .ok types

/-- The types of all nodes, in topological order. -/
def forwardTypes (setting : Option String) (g : Graph) :
    Except Error (OrderedMap Reference) := do
  (← g.sorted).foldlM (addType setting g) .empty

end TensorGraph.Graph
