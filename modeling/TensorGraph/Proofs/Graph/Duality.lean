import TensorGraph.Proofs.Document.Reordering
import TensorGraph.Proofs.Graph.Walking

/-!
Edges seen from both of their ends. Loading tells every node of all that take an input from it, and
a removal takes a node out of both kinds of lists, so in a graph that is loaded and then loses nodes
the successors of a node are just the nodes that name it as an input. The two walks then follow the
same edges in opposite directions.
-/

namespace TensorGraph.Graph

open Relation

variable {g : Graph} {doc : Value} {a b : String}

/-- Any number of removals keeps the edges of the nodes that are left. -/
theorem Tied.foldl_remove (tied : g.Tied) (gone : List String) :
    (gone.foldl Graph.remove g).Tied := by
  induction gone generalizing g with
  | nil => exact tied
  | cons name gone ih => exact ih (tied.remove name)

/-- Along successors one comes to the nodes that take an input. -/
theorem Tied.leads_outputs_iff (tied : g.Tied) :
    g.Leads Node.outputs a b ↔ g.Precedes a b := by
  have indexed := tied.indexed
  constructor
  · rintro ⟨has, m, at_source, listed⟩
    obtain ⟨member, rfl⟩ := indexed.node?_eq_some_iff.1 at_source
    obtain ⟨n, member', takes, rfl⟩ := mem_takers.1 ((tied.mem_outputs_iff m member b).1 listed)
    exact ⟨indexed.has_of_mem member, n, indexed.node?_of_mem member', takes⟩
  · rintro ⟨has, n, at_target, takes⟩
    obtain ⟨member', rfl⟩ := indexed.node?_eq_some_iff.1 at_target
    obtain ⟨m, member, rfl⟩ := mem_names.1 (indexed.has_iff.1 has)
    refine ⟨indexed.has_of_mem member', m, indexed.node?_of_mem member, ?_⟩
    rw [tied.mem_outputs_iff m member, indexed.mem_takers_iff member']
    exact takes

/-- The walk along successors finds the nodes that depend on a node. -/
theorem Tied.mem_successors_iff (tied : g.Tied) :
    b ∈ g.successors a ↔ b ≠ a ∧ TransGen g.Precedes a b := by
  have followed : g.Leads Node.outputs = g.Precedes := by
    funext source target
    exact propext tied.leads_outputs_iff
  rw [successors, tied.indexed.mem_walk_iff, followed]

/-- **Duality.** In a graph that is loaded and then loses nodes, one by one, a name is found by the
walk along successors from another one if and only if that one is found by the walk along inputs
from the first. This is so where a node depends on another one, which may go through cycles. -/
theorem mem_successors_iff_mem_predecessors (loaded : Document.toGraph doc = .ok g)
    (gone : List String) (a b : String) :
    (b ∈ (gone.foldl Graph.remove g).successors a ↔
      a ∈ (gone.foldl Graph.remove g).predecessors b) ∧
    (a ∈ (gone.foldl Graph.remove g).predecessors b ↔
      a ≠ b ∧ TransGen (gone.foldl Graph.remove g).Precedes a b) := by
  have tied := (Document.tied_of_toGraph loaded).foldl_remove gone
  refine ⟨?_, tied.indexed.mem_predecessors_iff⟩
  rw [tied.mem_successors_iff, tied.indexed.mem_predecessors_iff, ne_comm]

/-- Records of a node that takes its own output and comes before its input, of a node between, and
of two nodes behind that take inputs from each other. -/
def tangle : Value :=
  let record (id : String) (inputs : List String) : Value :=
    .map [("id", .text id), ("kind", .text "op"), ("inputs", .ofTexts inputs)]
  .map [("nodes", .list [record "r" ["s", "q"], record "q" ["r", "t"], record "s" ["s", "x", "s"],
    record "t" ["s"], record "x" []])]

theorem mem_successors_tangle : ∃ g, Document.toGraph tangle = .ok g ∧
    (["t", "z"].foldl Graph.remove g).names = ["r", "q", "s", "x"] ∧
    "q" ∈ (["t", "z"].foldl Graph.remove g).successors "x" ∧
    "x" ∈ (["t", "z"].foldl Graph.remove g).predecessors "q" ∧
    TransGen (["t", "z"].foldl Graph.remove g).Precedes "x" "q" := by
  obtain ⟨g, loaded, left, found⟩ : ∃ g, Document.toGraph tangle = .ok g ∧
      (["t", "z"].foldl Graph.remove g).names = ["r", "q", "s", "x"] ∧
      (["t", "z"].foldl Graph.remove g).successors "x" = ["s", "r", "q"] := ⟨_, rfl, rfl, rfl⟩
  obtain ⟨dual, depends⟩ := mem_successors_iff_mem_predecessors loaded ["t", "z"] "x" "q"
  have ahead : "q" ∈ (["t", "z"].foldl Graph.remove g).successors "x" := by
    rw [found]
    decide
  exact ⟨g, loaded, left, ahead, dual.1 ahead, (depends.1 (dual.1 ahead)).2⟩

end TensorGraph.Graph
