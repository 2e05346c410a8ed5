import TensorGraph.Graph.Basic

/-!
Topological order: every node comes after its predecessors. Nodes that wait for nothing stand in
a queue; placing the first of them releases its consumers, one for each input they take from it,
and a node whose last input is released joins the queue.
-/

namespace TensorGraph.Graph

/-- For each node the number of inputs that existing nodes provide. -/
def openInputs (g : Graph) : Entries Nat :=
  g.nodes.map fun n => (n.name, (n.inputs.filter g.has).length)

/-- The nodes that take an input from a node, one entry for each such input. -/
def consumers (g : Graph) (name : String) : List String :=
  g.nodes.flatMap fun n => (n.inputs.filter (· = name)).map fun _ => n.name

/-- Releases one input of a node. -/
def release (state : Entries Nat × List String) (name : String) : Entries Nat × List String :=
  let left := (state.1.get? name).getD 0 - 1
  (state.1.put name left, if left = 0 then state.2 ++ [name] else state.2)

/-- The order in which nodes are placed, at most as many as the first argument says. -/
def placed (g : Graph) : Nat → Entries Nat → List String → List String
  | 0, _, _ => []
  | _ + 1, _, [] => []
  | count + 1, waiting, name :: ready =>
    let state := (g.consumers name).foldl release (waiting, ready)
    name :: g.placed count state.1 state.2

/-- The nodes that can be placed, in the order in which they are. -/
def placement (g : Graph) : List String :=
  let waiting := g.openInputs
  g.placed g.nodes.length waiting ((waiting.filter (·.2 = 0)).map (·.1))

/-- All nodes, each after its predecessors. There is no such order if the graph has a cycle. -/
def sorted (g : Graph) : Except Error (List String) :=
  let order := g.placement
  if order.length < g.nodes.length then .error (.graph (.cyclic g.name)) else .ok order

/-- All nodes, each before its predecessors. -/
def reverseSorted (g : Graph) : Except Error (List String) := return (← g.sorted).reverse

def hasCycle (g : Graph) : Bool := g.placement.length < g.nodes.length

end TensorGraph.Graph
