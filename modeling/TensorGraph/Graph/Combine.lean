import TensorGraph.Graph.Basic

/-!
Graphs made from graphs: copies, restrictions and unions.
-/

namespace TensorGraph.Graph

/-- The same graph, its slots packed. -/
def clone (g : Graph) : Graph :=
  g.nodes.foldl insert
    { name := g.name, inputs := g.inputs, outputs := g.outputs, metadata := g.metadata }

/-- Adds a node of a larger graph, without its edges to nodes outside the selection. -/
def select (g : Graph) (selected : List String) (part : Graph) (name : String) : Graph :=
  match g.node? name with
  | some n =>
    let n := { n with
      inputs := n.inputs.filter selected.contains, outputs := n.outputs.filter selected.contains }
    (part.insert n).register n
  | none => part

/-- The graph restricted to these nodes, in this order. -/
def subgraph (g : Graph) (names : List String) : Graph :=
  let selected := (distinct names).filter g.has
  selected.foldl (g.select selected) (.empty (.text (g.name.plain ++ "_subgraph")))

/-- A name behind a stem. Without a stem, or with an empty one, the name stays. -/
def renamed (stem : Option String) (name : String) : String :=
  match stem with
  | some s => if s = "" then name else s ++ "_" ++ name
  | none => name

/-- A node with all its names behind a stem. -/
def renamedNode (stem : Option String) (n : Node) : Node :=
  { n with
    name := renamed stem n.name
    inputs := n.inputs.map (renamed stem)
    outputs := n.outputs.map (renamed stem) }

/-- Adds a node of another graph. -/
def absorb (other : Value) (g : Graph) (n : Node) : Except Error Graph :=
  if g.has n.name then .error (.graph (.mergeCollision other n.name)) else .ok (g.insert n)

/-- The nodes of two graphs side by side; those of the second have their names behind a stem. The
name and the metadata are those of the first. -/
def merge (g other : Graph) (stem : Option String) : Except Error Graph := do
  let union ← (other.nodes.map (renamedNode stem)).foldlM (absorb other.name) g.clone
  return { union with
    inputs := g.inputs ++ other.inputs.map (renamed stem)
    outputs := g.outputs ++ other.outputs.map (renamed stem) }

end TensorGraph.Graph
