import TensorGraph.Graph.Order

/-!
Structural checks. Each violation is reported as a line of text.
-/

namespace TensorGraph.Graph

/-- The neighbours of a node that do not exist. -/
def danglingOf (g : Graph) (n : Node) : List String :=
  let report (side : String) (name : String) : String :=
    "node '" ++ n.name ++ "' references non-existent " ++ side ++ " '" ++ name ++ "'"
  (n.inputs.filter fun p => !g.has p).map (report "input") ++
    (n.outputs.filter fun s => !g.has s).map (report "output")

/-- The input nodes that have inputs. -/
def fedInputs (g : Graph) : List String :=
  (g.inputs.filter fun name => (g.node? name).any fun n => !n.inputs.isEmpty).map fun name =>
    "input node '" ++ name ++ "' has inputs"

/-- The output nodes that have no inputs. -/
def idleOutputs (g : Graph) : List String :=
  (g.outputs.filter fun name => (g.node? name).any fun n => n.inputs.isEmpty).map fun name =>
    "output node '" ++ name ++ "' has no inputs"

/-- A line for each violation. -/
def violations (g : Graph) : List String :=
  (if g.hasCycle then ["graph contains cycles"] else []) ++ g.nodes.flatMap g.danglingOf ++
    g.fedInputs ++ g.idleOutputs

def validate (g : Graph) : Bool := g.violations.isEmpty

end TensorGraph.Graph
