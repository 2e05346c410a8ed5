import TensorGraph.Graph.Basic

/-!
Walks: all nodes that can be reached from a node along one kind of edge, in the order of a search
that goes deep first.
-/

namespace TensorGraph.Graph

/-- Visits the names on a stack. Each visit takes one name off; a node that is visited for the
first time puts its edges on top. -/
def visit (g : Graph) (edges : Node → List String) :
    Nat → List String → List String → List String
  | 0, _, _ => []
  | _ + 1, _, [] => []
  | fuel + 1, seen, name :: stack =>
    if name ∈ seen then g.visit edges fuel seen stack
    else
      match g.node? name with
      | some n => name :: g.visit edges fuel (name :: seen) (edges n ++ stack)
      | none => g.visit edges fuel (name :: seen) stack

/-- All nodes that can be reached from a node, without that node. Every name that is visited
stands on an edge of some node, which bounds the visits. -/
def walk (g : Graph) (edges : Node → List String) (name : String) : List String :=
  match g.node? name with
  | some n => g.visit edges (g.nodes.flatMap edges).length [name] (edges n)
  | none => []

def predecessors (g : Graph) (name : String) : List String := g.walk Node.inputs name

def successors (g : Graph) (name : String) : List String := g.walk Node.outputs name

end TensorGraph.Graph
