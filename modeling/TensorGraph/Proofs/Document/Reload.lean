import TensorGraph.Document.Form
import TensorGraph.Proofs.Document.Loading
import TensorGraph.Proofs.Graph.Forward
import TensorGraph.Proofs.Graph.Relisted

/-!
Graphs that are written and read back. The records of a document stand in sorted order, so the
nodes come back in that order, each with the content it had. Successors are made anew: additions
give every node its successors already, since no node stands before one of its inputs, and the
pass over all nodes that follows finds nothing to complete.
-/

namespace TensorGraph.Document

open TensorGraph.Graph

variable {g g' : Graph} {n m : Node}

/-- A graph with the name, the metadata and the nodes of another one; the nodes stand in sorted
order. -/
structure Reloaded (g g' : Graph) : Prop where
  tidy : g'.Tidy
  name_eq : g'.name = g.name
  metadata_eq : g'.metadata = g.metadata
  nodes : List.Forall₂ SameNode (g.existing g.placement) g'.nodes

/-! ### What a reloaded graph is like -/

section Reloaded

variable (reloaded : Reloaded g g')

include reloaded

theorem Reloaded.relists : g'.Relists g g.placement :=
  reloaded.nodes.imp fun _ _ same => same.toSameEdges

variable (indexed : g.Indexed)

include indexed

theorem Reloaded.names_eq : g'.names = g.placement :=
  reloaded.relists.names_eq indexed indexed.placement_subset

/-- Each of its nodes comes from the graph that was written. -/
theorem Reloaded.exists_same_of_mem_nodes (member : m ∈ g'.nodes) :
    ∃ n ∈ g.nodes, SameNode n m := by
  obtain ⟨n, listed, same⟩ := exists_same_of_mem reloaded.nodes.flip member
  exact ⟨n, (indexed.mem_existing_iff.1 listed).1, same⟩

variable (acyclic : g.Acyclic)

include acyclic

/-- It is sorted in the order of the graph that was written. -/
theorem Reloaded.sorted_eq : g'.sorted = g.sorted := by
  rw [indexed.sorted_eq acyclic]
  exact reloaded.relists.sorted_eq indexed reloaded.tidy.indexed acyclic

theorem Reloaded.acyclic_and_placement_eq : g'.Acyclic ∧ g'.placement = g.placement := by
  rw [← reloaded.tidy.indexed.sorted_eq_ok_iff, reloaded.sorted_eq indexed acyclic,
    indexed.sorted_eq acyclic]

theorem Reloaded.forward : Forward g'.nodes := by
  refine reloaded.tidy.indexed.forward_of_placement ?_
  rw [reloaded.names_eq indexed, (reloaded.acyclic_and_placement_eq indexed acyclic).2]

theorem Reloaded.has_eq (name : String) : g'.has name = g.has name :=
  reloaded.relists.has_eq indexed reloaded.tidy.indexed
    (acyclic.placement_perm indexed) name

/-- Every node of the graph that was written comes back. -/
theorem Reloaded.exists_same (member : n ∈ g.nodes) :
    ∃ m, g'.node? n.name = some m ∧ SameNode n m := by
  have placed := acyclic.mem_placement indexed (mem_names.2 ⟨n, member, rfl⟩)
  obtain ⟨m, member', same⟩ :=
    exists_same_of_mem reloaded.nodes (indexed.mem_existing_iff.2 ⟨member, placed⟩)
  exact ⟨m, reloaded.tidy.indexed.node?_eq_some_iff.2 ⟨member', same.name_eq⟩, same⟩

/-- Look-ups of one name find the same node, or none in either graph. -/
theorem Reloaded.node?_rel (name : String) :
    Option.Rel SameNode (g.node? name) (g'.node? name) := by
  cases found : g.node? name with
  | none =>
      have absent : name ∉ g'.names := by
        rw [← reloaded.tidy.indexed.has_iff, reloaded.has_eq indexed acyclic, indexed.has_iff]
        exact indexed.node?_eq_none_iff.1 found
      rw [reloaded.tidy.indexed.node?_eq_none_iff.2 absent]
      exact .none
  | some n =>
      obtain ⟨member, rfl⟩ := indexed.node?_eq_some_iff.1 found
      obtain ⟨m, found', same⟩ := reloaded.exists_same indexed acyclic member
      rw [found']
      exact .some same

/-- The successors of each of its nodes are all nodes that take an input from it. -/
theorem Reloaded.outputs_eq (member : m ∈ g'.nodes) : m.outputs = takers m.name g'.nodes :=
  reloaded.tidy.linked.outputs_eq (reloaded.forward indexed acyclic) member

end Reloaded

/-! ### The pass over all nodes -/

theorem foldl_eq_self {α β : Type} {step : β → α → β} {b : β} {as : List α}
    (fixed : ∀ a ∈ as, step b a = b) : as.foldl step b = b := by
  induction as with
  | nil => rfl
  | cons a as ih =>
      rw [List.foldl_cons, fixed a List.mem_cons_self]
      exact ih fun a later => fixed a (List.mem_cons_of_mem _ later)

/-- The pass changes nothing where every node is a successor of all that it takes an input from. -/
theorem foldl_relink_eq (indexed : g.Indexed)
    (linked : ∀ m ∈ g.nodes, m.outputs = takers m.name g.nodes) :
    g.nodes.foldl relink g = g := by
  rw [foldl_relink_eq_mapNodes indexed]
  apply mapNodes_of_forall
  intro m member
  have told : (takers m.name g.nodes).foldl appended m.outputs = m.outputs := by
    rw [linked m member]
    exact foldl_eq_self fun _ listed => if_pos listed
  rw [completed, told]

theorem opened_entriesOf (g : Graph) (order : List String) :
    opened (.map (entriesOf g order)) = .ok (bare g, (g.existing order).map nodeRecord) := by
  have metadata_read : looseEntries (entryOr (entriesOf g order) "metadata" (.map [])) =
      .ok g.metadata.entries := by
    cases there : g.metadata.isEmpty with
    | false =>
        simp [entriesOf, metadataEntry, there, entryOr, Entries.get?_cons, looseEntries]
    | true =>
        have nothing : g.metadata.entries = [] := List.isEmpty_iff.1 there
        simp [entriesOf, metadataEntry, there, entryOr, Entries.get?_cons, Entries.get?_nil,
          looseEntries, nothing]
  have name_read : entryOr (entriesOf g order) "name" (.text "") = g.name := rfl
  have nodes_read : entryOr (entriesOf g order) "nodes" (.list []) =
      .list ((g.existing order).map nodeRecord) := rfl
  simp [opened, metadata_read, name_read, nodes_read, g.metadata.ofEntries_entries, bare]

/-- **Reloading.** A graph without a cycle whose nodes have names is written, and what is written
is read back. -/
theorem exists_reloaded (indexed : g.Indexed) (named : ∀ n ∈ g.nodes, n.name ≠ "")
    (acyclic : g.Acyclic) :
    ∃ doc g', ofGraph g = .ok doc ∧ toGraph doc = .ok g' ∧ Reloaded g g' := by
  have names_eq := indexed.map_name_existing indexed.placement_subset
  have held : List.Forall₂ Holds ((g.existing g.placement).map nodeRecord)
      (g.existing g.placement) := by
    rw [List.forall₂_map_left_iff, List.forall₂_same]
    exact fun n listed => holds_nodeRecord (named n (indexed.mem_existing_iff.1 listed).1)
  obtain ⟨g', loaded, tidy, name_eq, metadata_eq, same⟩ :=
    exists_foldlM_addRecord (tidy_bare g) .nil held
      (by rw [names_eq]; exact indexed.nodup_placement)
  have reloaded : Reloaded g g' := ⟨tidy, name_eq, metadata_eq, same⟩
  refine ⟨.map (entriesOf g g.placement), g', ?_, ?_, reloaded⟩
  · rw [ofGraph, indexed.sorted_eq acyclic]
    rfl
  · have passed := foldl_relink_eq tidy.indexed fun m => reloaded.outputs_eq indexed acyclic
    rw [toGraph, opened_entriesOf]
    simp only [ok_bind, loaded, passed, pure_eq_ok]

end TensorGraph.Document
