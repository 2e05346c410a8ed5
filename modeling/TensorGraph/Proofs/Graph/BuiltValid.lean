import TensorGraph.Proofs.Graph.Building
import TensorGraph.Proofs.Graph.Validity

/-!
Graphs that a builder makes pass the checks. The order in which nodes come is a forward one, so
there is no cycle, and the kind of a call fixes how many inputs its node takes: a source has none,
an output has one.
-/

namespace TensorGraph

open TensorGraph.Graph

variable {g g' : Graph} {b : Builder} {form : Node → Prop}

/-- An input node takes no input, and an output node takes one. -/
structure Graph.Shaped (n : Node) : Prop where
  source : n.kind = .input → n.inputs = []
  sink : n.kind = .output → n.inputs.length = 1

/-- To be told of a successor changes neither the kind nor the inputs of a node. -/
theorem Graph.Gains.forall_shaped (gains : g.Gains form g') (indexed : g.Indexed)
    (formed : ∀ n, form n → Shaped n) (all : ∀ n ∈ g.nodes, Shaped n) :
    ∀ n ∈ g'.nodes, Shaped n := by
  apply gains.forall_nodes (P := fun _ => Shaped) indexed _ formed all
  intro _ _ m _ shaped
  exact ⟨shaped.source, shaped.sink⟩

namespace Builder

/-- Every run of calls leaves shaped nodes. -/
theorem Built.shaped (built : Built b) : ∀ n ∈ b.graph.nodes, Shaped n := by
  induction built with
  | start name => exact fun _ member => nomatch member
  | addInput before tensor name ih =>
      apply (addSource_gains .input tensor name _).forall_shaped before.grown.indexed _ ih
      rintro n ⟨_, _, rfl⟩
      exact ⟨fun _ => rfl, nofun⟩
  | addConst before tensor name ih =>
      apply (addSource_gains .const tensor name _).forall_shaped before.grown.indexed _ ih
      rintro n ⟨_, _, rfl⟩
      exact ⟨nofun, nofun⟩
  | addOperation before setting kind inputs shape elementType attributes name ih =>
      apply (addOperation_gains setting kind inputs shape elementType attributes
        name).forall_shaped before.grown.indexed _ ih
      rintro n ⟨_, _, made⟩
      obtain ⟨_, _, rfl, _⟩ := operationNode_spec before.grown.indexed made
      exact ⟨nofun, nofun⟩
  | addOutput before input name ih =>
      apply (addOutput_gains input name).forall_shaped before.grown.indexed _ ih
      rintro n ⟨_, _, _, _, rfl⟩
      exact ⟨nofun, fun _ => rfl⟩

/-- **Builders make valid graphs.** After any run of calls, those that fail included, the checks
find nothing. The order of the nodes is a sorted one, every input of a node is there, an input node
has no inputs, and an output node has one. -/
theorem built_valid (built : Built b) :
    b.graph.validate = true ∧
      (∀ before behind, b.graph.Precedes before behind →
        b.graph.names.idxOf before < b.graph.names.idxOf behind) ∧
      ∀ n ∈ b.graph.nodes, (∀ p ∈ n.inputs, b.graph.has p = true) ∧
        (n.kind = .input → n.inputs = []) ∧ (n.kind = .output → n.inputs.length = 1) := by
  have grown := built.grown
  have tidy := grown.edited.tidy
  have shaped := built.shaped
  refine ⟨?_, ?_, ?_⟩
  · apply tidy.validate_iff.2
    refine ⟨grown.acyclic, fun n member => ⟨grown.present n member, (shaped n member).source, ?_⟩⟩
    intro output nothing
    have one := (shaped n member).sink output
    rw [nothing] at one
    cases one
  · exact fun _ _ => tidy.indexed.idxOf_lt_of_forward grown.forward
  · exact fun n member => ⟨grown.present n member, (shaped n member).source, (shaped n member).sink⟩

/-- A builder after a call that fails for a generated name that is taken, one that fails for an
operation on itself, and three that add a node. -/
def clumsy : Builder :=
  let b : Builder := { graph := .empty (.text "g") }
  let b := (b.addInput (some (.empty ⟨[2]⟩ .float32)) "relu_0").1
  let b := (b.addOperation none .relu ["relu_0"] none none [] "").1
  let b := (b.addOperation none .relu ["self"] none none [] "self").1
  let b := (b.addOperation none .add ["relu_0", "relu_0"] none none [] "").1
  (b.addOutput "add_1" "").1

theorem built_valid_clumsy : clumsy.graph.names = ["relu_0", "add_1", "output_2"] ∧
    clumsy.graph.validate = true := by
  have built : clumsy.Built :=
    .addOutput (.addOperation (.addOperation (.addOperation (.addInput (.start _) _ _)
      _ _ _ _ _ _ _) _ _ _ _ _ _ _) _ _ _ _ _ _ _) _ _
  exact ⟨rfl, (built_valid built).1⟩

end Builder

end TensorGraph
