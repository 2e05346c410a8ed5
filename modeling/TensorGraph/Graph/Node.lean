import TensorGraph.Graph.NodeKind
import TensorGraph.Operation.Basic

/-!
Nodes of a graph. A node knows its predecessors, which it takes its inputs from, and its
successors by name; the graph that holds a node keeps its successors up to date.
-/

namespace TensorGraph

/-- A node with the names of its predecessors and successors. -/
structure Node where
  name : String
  kind : NodeKind
  operation : Option Operation := none
  /-- The predecessors, in the order of the inputs they provide. -/
  inputs : List String := []
  /-- The successors. -/
  outputs : List String := []
  /-- The tensor that the node yields, if it is known. -/
  tensor : Option Reference := none
  metadata : OrderedMap Value := .empty

namespace Node

/-- What a node does, and to which nodes. -/
def head (n : Node) : String :=
  let arguments := "(" ++ String.intercalate ", " n.inputs ++ ")"
  match n.kind with
  | .op =>
    (match n.operation with
    | some op => op.kind.name
    | none => "op") ++ arguments
  | .output => "output" ++ arguments
  | kind => kind.name

/-- What a node does, and the type of its tensor. -/
def text (n : Node) : String :=
  n.head ++
    match n.tensor with
    | some r => " -> " ++ r.typeText
    | none => ""

/-- The name, the kind and the inputs of a node. -/
def summary (n : Node) : String :=
  "IRNode(" ++ Text.quoted n.name ++ ", " ++ n.kind.name ++ ", inputs=" ++
    shownList (n.inputs.map Text.quoted) ++ ")"

end Node

end TensorGraph
