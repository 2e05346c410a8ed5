import TensorGraph.Graph.Order

/-!
Graphs as text: one line of summary, or a listing of all nodes.
-/

namespace TensorGraph.Graph

/-- The name of the graph and its size. -/
def summary (g : Graph) : String :=
  "IRGraph(" ++ g.name.plain ++ ", nodes=" ++ toString g.nodeCount ++ ", ops=" ++
    toString g.operationCount ++ ")"

def nameSection (title : String) (names : List String) : String :=
  if names.isEmpty then "  " ++ title ++ ": []\n"
  else "  " ++ title ++ ":\n" ++ String.join (names.map fun name => "  - " ++ name ++ "\n")

/-- The nodes in the order in which a listing shows them: sorted, if that is possible. -/
def listed (g : Graph) : List String :=
  match g.sorted with
  | .ok names => names
  | .error _ => g.nodes.map Node.name

/-- The section that describes the nodes. -/
def nodeSection (g : Graph) : String :=
  match g.listed with
  | [] => "  nodes: \x7b\x7d\n"
  | names => "  nodes:\n" ++ String.join (names.map fun name =>
      "    " ++ name ++ ": " ++ ((g.node? name).map Node.text).getD "None" ++ "\n")

/-- The listing of a graph. -/
def text (g : Graph) : String :=
  "graph:\n" ++
    (match g.name with
    | .text "" => ""
    | name => "  name: " ++ name.plain ++ "\n") ++
    nameSection "inputs" g.inputs ++ nameSection "outputs" g.outputs ++ g.nodeSection

end TensorGraph.Graph
