import TensorGraph.Graph.Check
import TensorGraph.Proofs.Graph.Typing

/-!
What the structural checks find. Of the four kinds of violation, the one of a successor that does
not exist never occurs in a graph that additions and removals have made. The other three are seen on
the names, kinds and inputs of the nodes, so graphs with the same nodes pass or fail alike.
-/

namespace TensorGraph.Graph

variable {g g' : Graph} {n m : Node} {name : String}

/-- The inputs of a node exist, an input node has none, and an output node has some. -/
structure Sound (g : Graph) (n : Node) : Prop where
  present : ∀ p ∈ n.inputs, g.has p = true
  source : n.kind = .input → n.inputs = []
  sink : n.kind = .output → n.inputs ≠ []

/-- What the checks rely on: look-ups are right, inputs and outputs are noted, and successors
exist. -/
structure Checkable (g : Graph) : Prop where
  indexed : g.Indexed
  registered : g.Registered
  settled : ∀ n ∈ g.nodes, ∀ s ∈ n.outputs, g.has s = true

theorem Tidy.checkable (tidy : g.Tidy) : g.Checkable where
  indexed := tidy.indexed
  registered := tidy.registered
  settled := fun _ member _ listed =>
    tidy.indexed.has_iff.2 (tidy.linked.mem_of_mem_outputs member listed)

theorem Tied.checkable (tied : g.Tied) (registered : g.Registered) : g.Checkable where
  indexed := tied.indexed
  registered := registered
  settled := by
    intro n member s listed
    rw [tied.mem_outputs_iff n member, mem_takers] at listed
    obtain ⟨m, member', _, rfl⟩ := listed
    exact tied.indexed.has_iff.2 (List.mem_map_of_mem member')

/-- All inputs of all nodes exist. -/
def Whole (g : Graph) : Prop := ∀ n ∈ g.nodes, ∀ p ∈ n.inputs, g.has p = true

theorem danglingOf_eq_nil_iff : g.danglingOf n = [] ↔
    (∀ p ∈ n.inputs, g.has p = true) ∧ ∀ s ∈ n.outputs, g.has s = true := by
  simp [danglingOf]

/-- The names of the nodes of one kind that are selected. -/
theorem Indexed.filter_ofKind (indexed : g.Indexed) (kind : NodeKind) (select : Node → Bool) :
    (ofKind kind g.nodes).filter (fun name => (g.node? name).any select) =
      ofKind kind (g.nodes.filter select) := by
  rw [ofKind, List.filter_map, List.filter_filter, ofKind, List.filter_filter]
  congr 1
  apply List.filter_congr
  intro n member
  simp [indexed.node?_of_mem member, Bool.and_comm]

/-- Among the names of the nodes of one kind, none is selected if and only if no node of that kind
is. -/
theorem Indexed.filter_ofKind_eq_nil_iff (indexed : g.Indexed) (kind : NodeKind)
    (select : Node → Bool) : ((ofKind kind g.nodes).filter fun name => (g.node? name).any select) =
      [] ↔ ∀ n ∈ g.nodes, n.kind = kind → select n = false := by
  rw [indexed.filter_ofKind, ofKind, List.map_eq_nil_iff, List.filter_filter,
    List.filter_eq_nil_iff]
  simp

/-- The first two kinds of violation are those of the edges. -/
theorem Indexed.edge_violations_eq_nil_iff (indexed : g.Indexed) :
    (if g.hasCycle then ["graph contains cycles"] else []) ++ g.nodes.flatMap g.danglingOf = [] ↔
      g.Acyclic ∧
        ∀ n ∈ g.nodes, (∀ p ∈ n.inputs, g.has p = true) ∧ ∀ s ∈ n.outputs, g.has s = true := by
  have no_cycle : (if g.hasCycle then ["graph contains cycles"] else []) = [] ↔ g.Acyclic := by
    have := indexed.hasCycle_iff
    by_cases cycle : g.hasCycle = true <;> simp_all
  rw [List.append_eq_nil_iff, no_cycle, List.flatMap_eq_nil_iff]
  apply and_congr_right
  intro _
  exact forall₂_congr fun _ _ => danglingOf_eq_nil_iff

/-- Whatever is noted as an input or an output, a graph that passes the checks has no cycle, and
lacks no input of its nodes. -/
theorem Indexed.acyclic_and_whole_of_validate (indexed : g.Indexed) (valid : g.validate = true) :
    g.Acyclic ∧ g.Whole := by
  rw [validate, List.isEmpty_iff, violations, List.append_eq_nil_iff,
    List.append_eq_nil_iff] at valid
  obtain ⟨acyclic, present⟩ := indexed.edge_violations_eq_nil_iff.1 valid.1.1
  exact ⟨acyclic, fun n member => (present n member).1⟩

/-- The checks find nothing if and only if there is no cycle, every node is sound, and all
successors exist. -/
theorem Indexed.validate_iff (indexed : g.Indexed) (registered : g.Registered) :
    g.validate = true ↔
      g.Acyclic ∧ ∀ n ∈ g.nodes, g.Sound n ∧ ∀ s ∈ n.outputs, g.has s = true := by
  have none_fed : g.fedInputs = [] ↔ ∀ n ∈ g.nodes, n.kind = .input → n.inputs = [] := by
    rw [fedInputs, List.map_eq_nil_iff, registered.inputs_eq, indexed.filter_ofKind_eq_nil_iff]
    simp
  have none_idle : g.idleOutputs = [] ↔ ∀ n ∈ g.nodes, n.kind = .output → n.inputs ≠ [] := by
    rw [idleOutputs, List.map_eq_nil_iff, registered.outputs_eq, indexed.filter_ofKind_eq_nil_iff]
    simp
  rw [validate, List.isEmpty_iff, violations, List.append_eq_nil_iff, List.append_eq_nil_iff,
    indexed.edge_violations_eq_nil_iff, none_fed, none_idle]
  constructor
  · intro nothing
    rcases nothing with ⟨⟨⟨acyclic, present⟩, sources⟩, sinks⟩
    refine ⟨acyclic, fun n member => ⟨?_, (present n member).2⟩⟩
    exact ⟨(present n member).1, sources n member, sinks n member⟩
  · intro fine
    rcases fine with ⟨acyclic, sound⟩
    refine ⟨⟨⟨acyclic, fun n member => ?_⟩, fun n member => ?_⟩, fun n member => ?_⟩
    · exact ⟨(sound n member).1.present, (sound n member).2⟩
    · exact (sound n member).1.source
    · exact (sound n member).1.sink

/-- Where successors exist anyway, the checks find nothing if and only if there is no cycle and
every node is sound. -/
theorem Checkable.validate_iff (checkable : g.Checkable) :
    g.validate = true ↔ g.Acyclic ∧ ∀ n ∈ g.nodes, g.Sound n := by
  rw [checkable.indexed.validate_iff checkable.registered]
  apply and_congr_right
  intro _
  exact forall₂_congr fun n member => and_iff_left (checkable.settled n member)

theorem Tidy.validate_iff (tidy : g.Tidy) :
    g.validate = true ↔ g.Acyclic ∧ ∀ n ∈ g.nodes, g.Sound n :=
  tidy.checkable.validate_iff

/-! ### The same nodes -/

theorem SameNode.sound_iff (same : SameNode n m) (has_eq : g'.has = g.has) :
    g'.Sound m ↔ g.Sound n := by
  constructor
  · intro sound
    rcases sound with ⟨present, source, sink⟩
    simp only [same.inputs_eq, same.kind_eq, has_eq] at present source sink
    exact ⟨present, source, sink⟩
  · intro sound
    rcases sound with ⟨present, source, sink⟩
    refine ⟨?_, ?_, ?_⟩ <;> simpa only [same.inputs_eq, same.kind_eq, has_eq]

/-- Soundness carries over to the nodes of a graph that has the same ones. -/
theorem SameNodes.sound_of_forall (same : SameNodes g g') (indexed : g.Indexed)
    (indexed' : g'.Indexed) (sound : ∀ n ∈ g.nodes, g.Sound n) : ∀ m ∈ g'.nodes, g'.Sound m := by
  intro m member'
  obtain ⟨n, found, alike⟩ := same.symm.exists_right (indexed'.node?_of_mem member')
  have member := (indexed.node?_eq_some_iff.1 found).1
  exact (alike.sound_iff (same.symm.has_eq indexed' indexed)).1 (sound n member)

/-- The checks find the same in graphs with the same nodes. -/
theorem SameNodes.validate_eq (same : SameNodes g g') (checkable : g.Checkable)
    (checkable' : g'.Checkable) : g'.validate = g.validate := by
  have indexed := checkable.indexed
  have indexed' := checkable'.indexed
  rw [Bool.eq_iff_iff, checkable.validate_iff, checkable'.validate_iff, Acyclic, Acyclic,
    same.precedes_eq indexed indexed']
  apply and_congr_right
  intro _
  exact ⟨same.symm.sound_of_forall indexed' indexed, same.sound_of_forall indexed indexed'⟩

end TensorGraph.Graph
