import TensorGraph.Proofs.Document.Reload
import TensorGraph.Proofs.Graph.Building

/-!
The order of graph outputs and of successors after a round trip. A document lists both, but what is
read back is made from the nodes, which stand in sorted order; so both come back in that order. A
graph whose outputs were added in another order than the sorted one comes back with its outputs
rearranged.
-/

namespace TensorGraph.Document

open TensorGraph.Graph

variable {g g' : Graph} {n m : Node} {b : Builder} {order : List String}

/-- A graph has the outputs of another one, and its nodes have the successors of the nodes of the
same names, in the same order. -/
structure SameOutputs (g g' : Graph) : Prop where
  outputs_eq : g'.outputs = g.outputs
  successors_eq : ∀ n ∈ g.nodes, ∃ m, g'.node? n.name = some m ∧ m.outputs = n.outputs

/-- The outputs of a graph, and the successors of each node, stand in a given order. -/
structure InOrder (g : Graph) (order : List String) : Prop where
  outputs : g.outputs.Sublist order
  successors : ∀ n ∈ g.nodes, n.outputs.Sublist order

theorem Reloaded.outputs_eq_filter (reloaded : Reloaded g g') (tidy : g.Tidy) :
    g'.outputs = g.placement.filter (· ∈ g.outputs) := by
  have indexed := tidy.indexed
  rw [reloaded.tidy.registered.outputs_eq, ofKind_of_forall₂ reloaded.nodes, ofKind,
    indexed.map_filter_existing indexed.placement_subset, tidy.registered.outputs_eq]
  rfl

/-- The successors of a node come back in sorted order: they are all nodes that take an input from
it. -/
theorem Reloaded.successors_eq_filter (reloaded : Reloaded g g') (indexed : g.Indexed)
    (acyclic : g.Acyclic) (member : m ∈ g'.nodes) :
    m.outputs = g.placement.filter (· ∈ takers m.name g.nodes) := by
  rw [reloaded.outputs_eq indexed acyclic member, takers_of_forall₂ reloaded.relists, takers,
    indexed.map_filter_existing indexed.placement_subset]
  rfl

/-- Lists that are picked out of an order are the ones that were there if and only if those stood in
that order. -/
theorem sameOutputs_iff_of_filter (nodup : order.Nodup)
    (outputs_eq : g'.outputs = order.filter (· ∈ g.outputs))
    (successors_eq : ∀ n ∈ g.nodes, ∃ m, g'.node? n.name = some m ∧
      m.outputs = order.filter (· ∈ n.outputs)) :
    SameOutputs g g' ↔ InOrder g order := by
  have in_order {part : List String} : order.filter (· ∈ part) = part ↔ part.Sublist order :=
    filter_mem_eq_iff nodup
  constructor
  · intro kept
    rcases kept with ⟨same, alike⟩
    refine ⟨in_order.1 (outputs_eq.symm.trans same), fun n member => ?_⟩
    obtain ⟨m, found, listed⟩ := alike n member
    obtain ⟨m', found', listed'⟩ := successors_eq n member
    obtain rfl : m = m' := Option.some.inj (found.symm.trans found')
    exact in_order.1 (listed'.symm.trans listed)
  · intro in_place
    rcases in_place with ⟨outputs, successors⟩
    refine ⟨outputs_eq.trans (in_order.2 outputs), fun n member => ?_⟩
    obtain ⟨m, found, listed⟩ := successors_eq n member
    exact ⟨m, found, listed.trans (in_order.2 (successors n member))⟩

/-- **Order of outputs.** A graph that a builder has made comes back with its outputs, and the
successors of each node, in sorted order. So they come back as they were if and only if they stood
in that order. -/
theorem sameOutputs_iff_inOrder (built : b.Built) :
    ∃ order doc g', b.graph.sorted = .ok order ∧ ofGraph b.graph = .ok doc ∧
      toGraph doc = .ok g' ∧
      g'.outputs = order.filter (· ∈ b.graph.outputs) ∧
      (∀ n ∈ b.graph.nodes, ∃ m, g'.node? n.name = some m ∧
        m.outputs = order.filter (· ∈ n.outputs)) ∧
      (SameOutputs b.graph g' ↔ InOrder b.graph order) := by
  have grown := built.grown
  have tidy := grown.edited.tidy
  have indexed := tidy.indexed
  obtain ⟨doc, g', written, read, reloaded⟩ := exists_reloaded indexed grown.named grown.acyclic
  have outputs_eq := reloaded.outputs_eq_filter tidy
  have successors_eq : ∀ n ∈ b.graph.nodes, ∃ m, g'.node? n.name = some m ∧
      m.outputs = b.graph.placement.filter (· ∈ n.outputs) := by
    intro n member
    obtain ⟨m, found, same⟩ := reloaded.exists_same indexed grown.acyclic member
    have member' := (reloaded.tidy.indexed.node?_eq_some_iff.1 found).1
    refine ⟨m, found, ?_⟩
    rw [reloaded.successors_eq_filter indexed grown.acyclic member', same.name_eq,
      tidy.linked.outputs_eq grown.forward member]
  exact ⟨b.graph.placement, doc, g', indexed.sorted_eq grown.acyclic, written, read, outputs_eq,
    successors_eq, sameOutputs_iff_of_filter indexed.nodup_placement outputs_eq successors_eq⟩

/-- A builder after two calls that make a node with two successors, in the order in which they are
sorted. -/
def chain : Builder :=
  let b : Builder := { graph := .empty (.text "g") }
  let b := (b.addInput (some (.empty ⟨[2]⟩ .float32)) "x").1
  let b := (b.addOperation none .relu ["x"] none none [] "d").1
  (b.addOutput "x" "o").1

theorem built_chain : chain.Built :=
  .addOutput (.addOperation (.addInput (.start _) _ _) _ _ _ _ _ _ _) _ _

theorem sameOutputs_chain : ∃ doc g', ofGraph chain.graph = .ok doc ∧ toGraph doc = .ok g' ∧
    SameOutputs chain.graph g' := by
  obtain ⟨order, doc, g', sorted, written, read, _, _, same_iff⟩ :=
    sameOutputs_iff_inOrder built_chain
  have order_eq : chain.graph.sorted = .ok ["x", "d", "o"] := rfl
  obtain rfl : ["x", "d", "o"] = order := Except.ok.inj (order_eq.symm.trans sorted)
  have in_order : InOrder chain.graph ["x", "d", "o"] := ⟨by decide, by decide⟩
  exact ⟨doc, g', written, read, same_iff.2 in_order⟩

/-- A builder whose input has an early and a late successor: the second one waits for the first,
the third one does not. -/
def reconverging : Builder :=
  let b : Builder := { graph := .empty (.text "g") }
  let b := (b.addInput (some (.empty ⟨[2]⟩ .float32)) "x").1
  let b := (b.addOperation none .relu ["x"] none none [] "d").1
  let b := (b.addOperation none .add ["x", "d"] none none [] "a").1
  let b := (b.addOutput "a" "o1").1
  (b.addOutput "x" "o2").1

theorem outputs_reconverging : reconverging.Built ∧
    ∃ doc g', ofGraph reconverging.graph = .ok doc ∧ toGraph doc = .ok g' ∧
      reconverging.graph.outputs = ["o1", "o2"] ∧ g'.outputs = ["o2", "o1"] ∧
      ¬ SameOutputs reconverging.graph g' := by
  have built : reconverging.Built :=
    .addOutput (.addOutput (.addOperation (.addOperation (.addInput (.start _) _ _) _ _ _ _ _ _ _)
      _ _ _ _ _ _ _) _ _) _ _
  refine ⟨built, _, _, rfl, rfl, rfl, rfl, ?_⟩
  intro kept
  exact absurd kept.outputs_eq (by decide)

end TensorGraph.Document
