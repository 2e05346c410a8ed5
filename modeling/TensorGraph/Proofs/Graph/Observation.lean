import Mathlib.Logic.Function.Basic
import TensorGraph.Document.Form
import TensorGraph.Graph.Check
import TensorGraph.Graph.Drawing
import TensorGraph.Graph.Render
import TensorGraph.Graph.Types
import TensorGraph.Graph.Walk
import TensorGraph.Proofs.Graph.History

/-!
What callers see of graphs. Two graphs with the same nodes in the same order, the same name, inputs,
outputs and metadata may lie in different slots. No query tells them apart, and no call does: what
the calls make of them is again alike, so no later query tells them apart either.
-/

namespace TensorGraph.Graph

variable {g g' h h' : Graph} {n : Node} {name : String} {order : List String}

/-- The answers of a graph to all queries. -/
structure View where
  name : Value
  nodes : List Node
  inputs : List String
  outputs : List String
  metadata : OrderedMap Value
  nodeCount : Nat
  operationCount : Nat
  has : String → Bool
  node? : String → Option Node
  predecessorNodes : String → List Node
  successorNodes : String → List Node
  predecessors : String → List String
  successors : String → List String
  sorted : Except Error (List String)
  reverseSorted : Except Error (List String)
  hasCycle : Bool
  violations : List String
  validate : Bool
  types : Option String → Except Error (OrderedMap Reference)
  summary : String
  text : String
  drawing : String → Except Error String
  document : Except Error Value
  json : Option Int → Except Error String
  yaml : Except Error String

def view (g : Graph) : View where
  name := g.name
  nodes := g.nodes
  inputs := g.inputs
  outputs := g.outputs
  metadata := g.metadata
  nodeCount := g.nodeCount
  operationCount := g.operationCount
  has := g.has
  node? := g.node?
  predecessorNodes := g.predecessorNodes
  successorNodes := g.successorNodes
  predecessors := g.predecessors
  successors := g.successors
  sorted := g.sorted
  reverseSorted := g.reverseSorted
  hasCycle := g.hasCycle
  violations := g.violations
  validate := g.validate
  types := fun setting => g.forwardTypes setting
  summary := g.summary
  text := g.text
  drawing := g.drawing
  document := Document.ofGraph g
  json := Document.toJson g
  yaml := Document.toYaml g

/-- Two graphs that differ at most in the slots where their nodes lie. -/
structure Alike (g h : Graph) : Prop where
  indexed : g.Indexed
  indexed' : h.Indexed
  name_eq : h.name = g.name
  nodes_eq : h.nodes = g.nodes
  inputs_eq : h.inputs = g.inputs
  outputs_eq : h.outputs = g.outputs
  metadata_eq : h.metadata = g.metadata

/-! ### Queries -/

section Queries

variable (alike : Alike g h)

include alike

theorem Alike.names_eq : h.names = g.names := by
  rw [names, alike.nodes_eq, ← names]

theorem Alike.has_eq : h.has = g.has := by
  funext name
  rw [Bool.eq_iff_iff, alike.indexed.has_iff, alike.indexed'.has_iff, alike.names_eq]

theorem Alike.node?_eq : h.node? = g.node? := by
  funext name
  apply Option.ext
  intro n
  rw [alike.indexed.node?_eq_some_iff, alike.indexed'.node?_eq_some_iff, alike.nodes_eq]

theorem Alike.nodeCount_eq : h.nodeCount = g.nodeCount := by
  rw [alike.indexed.nodeCount_eq, alike.indexed'.nodeCount_eq, alike.nodes_eq]

theorem Alike.existing_eq : h.existing = g.existing := by
  funext names
  rw [existing, alike.node?_eq, ← existing]

theorem Alike.placed_eq : h.placed = g.placed := by
  funext count waiting ready
  induction count generalizing waiting ready with
  | zero => rfl
  | succ count ih =>
      cases ready with
      | nil => rfl
      | cons name ready =>
          have consumers_eq : h.consumers name = g.consumers name := by
            rw [consumers, alike.nodes_eq, ← consumers]
          rw [placed, placed, consumers_eq, ih]

theorem Alike.placement_eq : h.placement = g.placement := by
  rw [placement, placement, openInputs, openInputs, alike.placed_eq, alike.nodes_eq, alike.has_eq]

theorem Alike.sorted_eq : h.sorted = g.sorted := by
  rw [sorted, alike.placement_eq, alike.nodes_eq, alike.name_eq, ← sorted]

theorem Alike.hasCycle_eq : h.hasCycle = g.hasCycle := by
  rw [hasCycle, alike.placement_eq, alike.nodes_eq, ← hasCycle]

theorem Alike.visit_eq : h.visit = g.visit := by
  funext edges fuel seen stack
  induction fuel generalizing seen stack with
  | zero => rfl
  | succ fuel ih =>
      cases stack with
      | nil => rfl
      | cons name stack =>
          rw [visit, visit, alike.node?_eq]
          simp only [ih]

theorem Alike.walk_eq : h.walk = g.walk := by
  funext edges name
  rw [walk, alike.node?_eq, alike.visit_eq, alike.nodes_eq, ← walk]

theorem Alike.violations_eq : h.violations = g.violations := by
  have danglingOf_eq : h.danglingOf = g.danglingOf := by
    funext n
    rw [danglingOf, alike.has_eq, ← danglingOf]
  rw [violations, violations, fedInputs, fedInputs, idleOutputs, idleOutputs, alike.hasCycle_eq,
    danglingOf_eq, alike.nodes_eq, alike.inputs_eq, alike.outputs_eq, alike.node?_eq]

theorem Alike.forwardTypes_eq (setting : Option String) :
    h.forwardTypes setting = g.forwardTypes setting := by
  have addType_eq : addType setting h = addType setting g := by
    funext types name
    rw [addType, alike.node?_eq, ← addType]
  rw [forwardTypes, forwardTypes, alike.sorted_eq, addType_eq]

theorem Alike.text_eq : h.text = g.text := by
  rw [text, text, nodeSection, nodeSection, listed, listed, alike.name_eq, alike.inputs_eq,
    alike.outputs_eq, alike.sorted_eq, alike.nodes_eq, alike.node?_eq]

theorem Alike.drawing_eq : h.drawing = g.drawing := by
  funext direction
  rw [drawing, drawing, drawnTitle, drawnTitle, alike.name_eq, alike.nodes_eq]

theorem Alike.ofGraph_eq : Document.ofGraph h = Document.ofGraph g := by
  have entriesOf_eq : Document.entriesOf h = Document.entriesOf g := by
    funext order
    rw [Document.entriesOf, Document.entriesOf, alike.name_eq, alike.existing_eq, alike.inputs_eq,
      alike.outputs_eq, alike.metadata_eq]
  rw [Document.ofGraph, Document.ofGraph, alike.sorted_eq, entriesOf_eq]

/-- No query tells graphs apart that are alike. -/
theorem Alike.view_eq : h.view = g.view := by
  have predecessorNodes_eq : h.predecessorNodes = g.predecessorNodes := by
    funext name
    rw [predecessorNodes, predecessorNodes, alike.node?_eq, alike.existing_eq]
  have successorNodes_eq : h.successorNodes = g.successorNodes := by
    funext name
    rw [successorNodes, successorNodes, alike.node?_eq, alike.existing_eq]
  have predecessors_eq : h.predecessors = g.predecessors := by
    funext name
    rw [predecessors, predecessors, alike.walk_eq]
  have successors_eq : h.successors = g.successors := by
    funext name
    rw [successors, successors, alike.walk_eq]
  have types_eq : (fun setting => h.forwardTypes setting) = fun setting => g.forwardTypes setting :=
    funext alike.forwardTypes_eq
  have json_eq : Document.toJson h = Document.toJson g := by
    funext indent
    rw [Document.toJson, Document.toJson, alike.ofGraph_eq]
  rw [view, view, operationCount, operationCount, reverseSorted, reverseSorted, validate, validate,
    summary, summary, operationCount, operationCount, Document.toYaml, Document.toYaml,
    alike.name_eq, alike.nodes_eq, alike.inputs_eq, alike.outputs_eq, alike.metadata_eq,
    alike.nodeCount_eq, alike.has_eq, alike.node?_eq, predecessorNodes_eq, successorNodes_eq,
    predecessors_eq, successors_eq, alike.sorted_eq, alike.hasCycle_eq, alike.violations_eq,
    types_eq, alike.text_eq, alike.drawing_eq, alike.ofGraph_eq, json_eq]

end Queries

end TensorGraph.Graph
