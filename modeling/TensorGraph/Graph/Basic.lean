import TensorGraph.Graph.Names
import TensorGraph.Graph.Node

/-!
Graphs as stores of nodes. Nodes lie in slots, in the order in which they were put in, and an
index maps the name of a node to its slot. A node that is removed leaves its slot vacant, so the
others keep their places; when vacant slots outnumber the nodes, the slots are packed.
-/

namespace TensorGraph

/-- A graph: an arena of nodes and vacant slots, an index of names, inputs and outputs. -/
structure Graph where
  name : Value := .text ""
  slots : List (Option Node) := []
  /-- The slot of each node. -/
  index : OrderedMap Nat := .empty
  /-- How many slots are vacant. -/
  vacant : Nat := 0
  /-- The names of the input nodes. -/
  inputs : List String := []
  /-- The names of the output nodes. -/
  outputs : List String := []
  metadata : OrderedMap Value := .empty

namespace Graph

def empty (name : Value) : Graph := { name }

/-- All nodes, in the order in which they were put in. -/
def nodes (g : Graph) : List Node := g.slots.filterMap id

def nodeCount (g : Graph) : Nat := g.index.size

/-- How many of the nodes are operations. -/
def operationCount (g : Graph) : Nat := (g.nodes.filter (·.kind = .op)).length

/-- Whether a node of this name is there. -/
def has (g : Graph) (name : String) : Bool := g.index.contains name

def node? (g : Graph) (name : String) : Option Node := do
  let slot ← g.index.get? name
  (← g.slots[slot]?)

/-- The nodes among these names. -/
def existing (g : Graph) (names : List String) : List Node := names.filterMap g.node?

/-- The predecessors of a node that exist. -/
def predecessorNodes (g : Graph) (name : String) : List Node :=
  ((g.node? name).map fun n => g.existing n.inputs).getD []

/-- The successors of a node that exist. -/
def successorNodes (g : Graph) (name : String) : List Node :=
  ((g.node? name).map fun n => g.existing n.outputs).getD []

/-- Changes the node with a name, if there is one. -/
def modify (g : Graph) (name : String) (change : Node → Node) : Graph :=
  match g.index.get? name with
  | some slot => { g with slots := g.slots.modify slot (Option.map change) }
  | none => g

/-- Puts a node into a slot of its own, without regard to its neighbours. -/
def insert (g : Graph) (n : Node) : Graph :=
  { g with slots := g.slots ++ [some n], index := g.index.put n.name g.slots.length }

/-- Notes an input or output node as such. -/
def register (g : Graph) (n : Node) : Graph :=
  match n.kind with
  | .input => { g with inputs := g.inputs ++ [n.name] }
  | .output => { g with outputs := g.outputs ++ [n.name] }
  | _ => g

/-- Appends a node to the successors of another one. -/
def link (successor : String) (g : Graph) (predecessor : String) : Graph :=
  g.modify predecessor fun n => { n with outputs := n.outputs ++ [successor] }

/-- Adds a node, and appends it to the successors of the predecessors that exist. -/
def add (g : Graph) (n : Node) : Except Error Graph :=
  if g.has n.name then .error (.graph (.duplicateNode n.name))
  else .ok (((distinct n.inputs).foldl (link n.name) (g.insert n)).register n)

/-- Packs the slots. -/
def pack (g : Graph) : Graph :=
  let nodes := g.nodes
  { g with
    slots := nodes.map some
    index := .ofEntries (nodes.zipIdx.map fun (n, slot) => (n.name, slot))
    vacant := 0 }

/-- Packs the slots if more of them are vacant than not. -/
def packIfSparse (g : Graph) : Graph := if g.index.size < g.vacant then g.pack else g

def vacate (g : Graph) (name : String) (slot : Nat) : Graph :=
  { g with slots := g.slots.set slot none, index := g.index.remove name, vacant := g.vacant + 1 }

/-- Removes a node, and its name from its neighbours. A name that is missing changes nothing. -/
def remove (g : Graph) (name : String) : Graph :=
  match g.index.get? name, g.node? name with
  | some slot, some n =>
    let g := g.vacate name slot
    let g := n.inputs.foldl
      (fun g p => g.modify p fun m => { m with outputs := without name m.outputs }) g
    let g := n.outputs.foldl
      (fun g s => g.modify s fun m => { m with inputs := without name m.inputs }) g
    packIfSparse
      { g with inputs := without name g.inputs, outputs := without name g.outputs }
  | _, _ => g

def setTensor (g : Graph) (name : String) (tensor : Option Reference) : Graph :=
  g.modify name fun n => { n with tensor }

/-- Sets an entry of the metadata of a node. -/
def setNodeMeta (g : Graph) (name key : String) (value : Value) : Graph :=
  g.modify name fun n => { n with metadata := n.metadata.put key value }

/-- Sets an entry of the metadata of the graph. -/
def setMeta (g : Graph) (key : String) (value : Value) : Graph :=
  { g with metadata := g.metadata.put key value }

end Graph

end TensorGraph
