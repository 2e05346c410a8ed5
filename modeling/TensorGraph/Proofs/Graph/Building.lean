import TensorGraph.Graph.Builder
import TensorGraph.Proofs.Graph.Forward

/-!
Graphs that a builder makes. A call of the builder adds one node or none, and what the node is like
is said once for each kind of call. It takes inputs from nodes that are there only, so nodes stand
in a forward order after any run of calls, those that fail included.
-/

namespace TensorGraph

open TensorGraph.Graph

variable {g g' : Graph} {b : Builder} {n : Node} {form : Node → Prop}

/-- A graph to which nothing has been added, or one node of a certain form. -/
inductive Graph.Gains (form : Node → Prop) (g : Graph) : Graph → Prop where
  | same : Gains form g g
  | add {g' : Graph} {n : Node} (formed : form n) (added : g.add n = .ok g') : Gains form g g'

/-- What one call can do to a graph: nothing, or it adds a node that has a name and takes its inputs
from nodes of the graph. -/
inductive Graph.Grows (g : Graph) : Graph → Prop where
  | same : Grows g g
  | add {g' : Graph} {n : Node} (fresh : n.outputs = []) (named : n.name ≠ "")
      (present : ∀ p ∈ n.inputs, g.has p = true) (added : g.add n = .ok g') : Grows g g'

/-- What a graph that has grown node by node is like. -/
structure Graph.Grown (g : Graph) : Prop where
  edited : g.Edited
  forward : Forward g.nodes
  named : ∀ n ∈ g.nodes, n.name ≠ ""
  present : ∀ n ∈ g.nodes, ∀ p ∈ n.inputs, g.has p = true

theorem Graph.Gains.grows (gains : g.Gains form g')
    (joins : ∀ n, form n → n.outputs = [] ∧ n.name ≠ "" ∧ ∀ p ∈ n.inputs, g.has p = true) :
    g.Grows g' := by
  cases gains with
  | same => exact .same
  | @add _ n formed added =>
      obtain ⟨fresh, named, present⟩ := joins n formed
      exact .add fresh named present added

/-- What a node is in the graph that it joins, and stays whatever is added after it, all nodes
are. -/
theorem Graph.Gains.forall_nodes {P : Graph → Node → Prop} (gains : g.Gains form g')
    (indexed : g.Indexed)
    (kept : ∀ n g' m, g.add n = .ok g' → P g m → P g' (feed n m))
    (formed : ∀ n, form n → P g n) (all : ∀ m ∈ g.nodes, P g m) : ∀ m ∈ g'.nodes, P g' m := by
  cases gains with
  | same => exact all
  | @add _ n made added =>
      rw [indexed.forall_nodes_add_iff added]
      constructor
      · exact fun m member => kept n _ m added (all m member)
      · exact kept n _ n added (formed n made)

theorem Graph.grown_empty (name : Value) : (Graph.empty name).Grown where
  edited := .empty name
  forward := trivial
  named := fun _ member => nomatch member
  present := fun _ member => nomatch member

/-- One call keeps a graph grown. -/
theorem Graph.Grown.grows (grown : g.Grown) (grows : g.Grows g') : g'.Grown := by
  cases grows with
  | same => exact grown
  | @add _ n fresh named present added =>
      have indexed := grown.edited.tidy.indexed
      have nodes_eq := indexed.nodes_add added
      have new := indexed.fresh_of_add added
      -- No node takes an input from the new one, since that name was missing until now.
      have unused {m : Node} (has : ∀ p ∈ m.inputs, g.has p = true) : n.name ∉ m.inputs :=
        fun takes => new (indexed.has_iff.1 (has _ takes))
      have settled : ∀ m ∈ g'.nodes, m.name ≠ "" ∧ ∀ p ∈ m.inputs, g'.has p = true := by
        rw [indexed.forall_nodes_add_iff added]
        constructor
        · intro m member
          refine ⟨grown.named m member, fun p takes => ?_⟩
          exact indexed.has_of_add added (grown.present m member p takes)
        · exact ⟨named, fun p takes => indexed.has_of_add added (present p takes)⟩
      refine ⟨.add grown.edited fresh added, ?_, fun m member => (settled m member).1,
        fun m member => (settled m member).2⟩
      rw [nodes_eq, forward_map (fun _ => name_feed) fun _ => inputs_feed]
      exact grown.forward.append (fun m member => unused (grown.present m member))
        (unused present)

theorem Graph.Grown.indexed (grown : g.Grown) : g.Indexed := grown.edited.tidy.indexed

/-- A graph that has grown has no cycle. -/
theorem Graph.Grown.acyclic (grown : g.Grown) : g.Acyclic :=
  grown.indexed.acyclic_of_forward grown.forward

namespace Builder

/-- A builder that some run of calls leads to. Calls that fail belong to the run. -/
inductive Built : Builder → Prop where
  | start (name : Value) : Built { graph := .empty name }
  | addInput {b : Builder} (before : Built b) (tensor : Option Reference) (name : String) :
      Built (b.addInput tensor name).1
  | addConst {b : Builder} (before : Built b) (tensor : Option Reference) (name : String) :
      Built (b.addConst tensor name).1
  | addOperation {b : Builder} (before : Built b) (setting : Option String) (kind : OperationKind)
      (inputs : List String) (shape : Option Shape) (elementType : Option ElementType)
      (attributes : Entries Value) (name : String) :
      Built (b.addOperation setting kind inputs shape elementType attributes name).1
  | addOutput {b : Builder} (before : Built b) (input name : String) :
      Built (b.addOutput input name).1

/-! ### Calls -/

@[simp] theorem graph_nameFor (name stem : String) : (b.nameFor name stem).2.graph = b.graph := by
  rw [nameFor]
  split <;> rfl

/-- The name of a new node is never empty. -/
theorem nameFor_ne_empty (name stem : String) : (b.nameFor name stem).1 ≠ "" := by
  rw [nameFor]
  split
  · intro empty
    have length_eq := congrArg String.length empty
    simp at length_eq
  · assumption

theorem addNode_gains (formed : form n) : b.graph.Gains form (b.addNode n).1.graph := by
  rw [addNode]
  cases added : b.graph.add n with
  | error => exact .same
  | ok g' => exact .add formed added

/-- A name whose tensor is found is there, and the tensor is that of its node. -/
theorem tensorOf_eq_ok (indexed : b.graph.Indexed) {name : String} {tensor : Option Reference}
    (found : b.tensorOf name = .ok tensor) :
    b.graph.has name = true ∧ b.graph.tensor? name = tensor := by
  rw [tensorOf] at found
  cases node : b.graph.node? name with
  | none => simp [node] at found
  | some n =>
      rw [node] at found
      cases found
      have listed : name ∈ b.graph.names := mem_names.2 ⟨n, indexed.node?_eq_some_iff.1 node⟩
      refine ⟨indexed.has_iff.2 listed, ?_⟩
      rw [Graph.tensor?, node, Option.bind_some]

/-- The node of an operation takes its inputs from nodes that are there, and its operation has the
tensors of these nodes. Where neither shape nor element type is given, its tensor is the result of
its operation. -/
theorem operationNode_spec (indexed : b.graph.Indexed) {setting : Option String}
    {kind : OperationKind} {inputs : List String} {shape : Option Shape}
    {elementType : Option ElementType} {attributes : Entries Value} {name : String}
    (made : b.operationNode setting kind inputs shape elementType attributes name = .ok n) :
    ∃ op r, n = { name, kind := .op, operation := some op, inputs, tensor := some r } ∧
      (∀ p ∈ inputs, b.graph.has p = true) ∧ op.inputs = inputs.map b.graph.tensor? ∧
      (shape = none → elementType = none → Operation.result setting op = .ok r) := by
  obtain ⟨references, found, made⟩ := bind_eq_ok_iff.1 made
  obtain ⟨read, _, made⟩ := bind_eq_ok_iff.1 made
  have present : ∀ p ∈ inputs, b.graph.has p = true := by
    intro p takes
    obtain ⟨_, tensor⟩ := exists_ok_of_mapM found takes
    exact (tensorOf_eq_ok indexed tensor).1
  have references_eq : references = inputs.map b.graph.tensor? :=
    mapM_eq_map (fun _ _ tensor => (tensorOf_eq_ok indexed tensor).2.symm) found
  cases shape <;> cases elementType
  case none.none =>
    obtain ⟨shape, shape_eq, made⟩ := bind_eq_ok_iff.1 made
    obtain ⟨elementType, type_eq, made⟩ := bind_eq_ok_iff.1 made
    -- The output is set once its type is known, and the type does not depend on it.
    have result_eq : Operation.result setting
        { kind, inputs := references, attributes := read, id := .text name } =
          .ok (.empty shape elementType) := by
      rw [Operation.result, shape_eq, ok_bind, type_eq]
      rfl
    cases made
    exact ⟨_, _, rfl, present, references_eq, fun _ _ => result_eq⟩
  all_goals
    obtain ⟨_, _, made⟩ := bind_eq_ok_iff.1 made
    obtain ⟨_, _, made⟩ := bind_eq_ok_iff.1 made
    cases made
    exact ⟨_, _, rfl, present, references_eq, fun shapeless typeless => by simp_all⟩

theorem operationNode_nameFor (given stem : String) (setting : Option String)
    (kind : OperationKind) (inputs : List String) (shape : Option Shape)
    (elementType : Option ElementType) (attributes : Entries Value) (name : String) :
    (b.nameFor given stem).2.operationNode setting kind inputs shape elementType attributes name =
      b.operationNode setting kind inputs shape elementType attributes name := by
  rw [nameFor]
  split <;> rfl

/-- A node without inputs: an input node or a constant. -/
theorem addSource_gains (kind : NodeKind) (tensor : Option Reference) (name stem : String) :
    b.graph.Gains (fun n => ∃ name ≠ "", n = { name, kind, tensor })
      ((b.nameFor name stem).2.addNode
        { name := (b.nameFor name stem).1, kind, tensor }).1.graph := by
  rw [← graph_nameFor name stem]
  exact addNode_gains ⟨_, nameFor_ne_empty name stem, rfl⟩

theorem addOperation_gains (setting : Option String) (kind : OperationKind)
    (inputs : List String) (shape : Option Shape) (elementType : Option ElementType)
    (attributes : Entries Value) (name : String) :
    b.graph.Gains (fun n => ∃ name ≠ "",
        b.operationNode setting kind inputs shape elementType attributes name = .ok n)
      (b.addOperation setting kind inputs shape elementType attributes name).1.graph := by
  rw [addOperation, ← graph_nameFor name kind.name]
  dsimp only
  rw [operationNode_nameFor]
  cases made : b.operationNode setting kind inputs shape elementType attributes
      (b.nameFor name kind.name).1 with
  | error => exact .same
  | ok n => exact addNode_gains ⟨_, nameFor_ne_empty name kind.name, made⟩

theorem addOutput_gains (input name : String) :
    b.graph.Gains (fun n => ∃ name ≠ "", ∃ tensor, b.tensorOf input = .ok tensor ∧
        n = { name, kind := .output, inputs := [input], tensor })
      (b.addOutput input name).1.graph := by
  rw [addOutput]
  cases found : b.tensorOf input with
  | error => exact .same
  | ok tensor =>
      rw [← graph_nameFor name "output"]
      exact addNode_gains ⟨_, nameFor_ne_empty name "output", tensor, rfl, rfl⟩

/-- Every run of calls leaves a graph that has grown node by node. -/
theorem Built.grown (built : Built b) : b.graph.Grown := by
  have source {b : Builder} {kind : NodeKind} {tensor : Option Reference} {n : Node}
      (formed : ∃ name ≠ "", n = { name, kind, tensor }) :
      n.outputs = [] ∧ n.name ≠ "" ∧ ∀ p ∈ n.inputs, b.graph.has p = true := by
    obtain ⟨_, named, rfl⟩ := formed
    exact ⟨rfl, named, fun _ takes => nomatch takes⟩
  induction built with
  | start name => exact grown_empty name
  | addInput _ tensor name ih =>
      exact ih.grows ((addSource_gains .input tensor name _).grows fun _ => source)
  | addConst _ tensor name ih =>
      exact ih.grows ((addSource_gains .const tensor name _).grows fun _ => source)
  | addOperation _ setting kind inputs shape elementType attributes name ih =>
      apply ih.grows
      apply (addOperation_gains setting kind inputs shape elementType attributes name).grows
      intro n formed
      obtain ⟨_, named, made⟩ := formed
      obtain ⟨_, _, rfl, present, _⟩ := operationNode_spec ih.indexed made
      exact ⟨rfl, named, present⟩
  | addOutput _ input name ih =>
      apply ih.grows
      apply (addOutput_gains input name).grows
      intro n formed
      obtain ⟨_, named, _, found, rfl⟩ := formed
      have has := (tensorOf_eq_ok ih.indexed found).1
      exact ⟨rfl, named, fun p takes => List.mem_singleton.1 takes ▸ has⟩

end Builder

end TensorGraph
