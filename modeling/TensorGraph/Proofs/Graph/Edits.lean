import TensorGraph.Proofs.Graph.Store

/-!
Additions and removals as changes of the list of nodes. Both work on slots, and on one neighbour
after the other; each comes to one change that is made of all nodes at once, with one node put in
behind the others or taken out.
-/

namespace TensorGraph.Graph

variable {g g' : Graph} {n m : Node} {name : String}

/-! ### One addition -/

/-- A node once another one takes its inputs. -/
def feed (taker : Node) (n : Node) : Node :=
  { n with outputs := if n.name ∈ taker.inputs then n.outputs ++ [taker.name] else n.outputs }

@[simp] theorem name_feed : (feed m n).name = n.name := rfl

@[simp] theorem kind_feed : (feed m n).kind = n.kind := rfl

@[simp] theorem inputs_feed : (feed m n).inputs = n.inputs := rfl

@[simp] theorem operation_feed : (feed m n).operation = n.operation := rfl

@[simp] theorem tensor_feed : (feed m n).tensor = n.tensor := rfl

/-- An addition puts the node behind all others and tells those that feed it, itself included. -/
theorem Indexed.add_eq (indexed : g.Indexed) (fresh : n.name ∉ g.names) :
    g.add n = .ok (((g.insert n).mapNodes (feed n)).register n) := by
  have absent : g.has n.name = false := by
    rw [Bool.eq_false_iff, ne_eq, indexed.has_iff]
    exact fresh
  have linked : (distinct n.inputs).foldl (link n.name) (g.insert n) =
      (g.insert n).mapNodes (feed n) := by
    let gain (m : Node) : Node := { m with outputs := m.outputs ++ [n.name] }
    have once := (indexed.insert fresh).foldl_modify_eq_of_nodup gain (fun _ => rfl)
      (nodup_distinct n.inputs)
    -- The new node lies in the store already, so one that takes its own output is told as well.
    refine once.trans (mapNodes_congr fun m _ => ?_)
    by_cases member : m.name ∈ n.inputs <;> simp [feed, gain, member]
  rw [add, absent, linked]
  rfl

theorem Indexed.fresh_of_add (indexed : g.Indexed) (added : g.add n = .ok g') :
    n.name ∉ g.names := by
  intro member
  rw [add, if_pos (indexed.has_iff.2 member)] at added
  cases added

@[simp] theorem nodes_register : (g.register n).nodes = g.nodes := by
  rw [register]
  split <;> rfl

@[simp] theorem name_register : (g.register n).name = g.name := by
  rw [register]
  split <;> rfl

@[simp] theorem metadata_register : (g.register n).metadata = g.metadata := by
  rw [register]
  split <;> rfl

theorem Indexed.register (indexed : g.Indexed) : (g.register n).Indexed := by
  rw [Graph.register]
  split <;> exact indexed

theorem Indexed.nodes_add (indexed : g.Indexed) (added : g.add n = .ok g') :
    g'.nodes = (g.nodes ++ [n]).map (feed n) := by
  rw [indexed.add_eq (indexed.fresh_of_add added), Except.ok.injEq] at added
  rw [← added, nodes_register, nodes_mapNodes, nodes_insert]

/-- What holds of all nodes after an addition: it holds of those that were there, and of the new
one, once they have been told. -/
theorem Indexed.forall_nodes_add_iff {P : Node → Prop} (indexed : g.Indexed)
    (added : g.add n = .ok g') :
    (∀ m ∈ g'.nodes, P m) ↔ (∀ m ∈ g.nodes, P (feed n m)) ∧ P (feed n n) := by
  rw [indexed.nodes_add added, List.forall_mem_map, List.forall_mem_append,
    List.forall_mem_singleton]

theorem Indexed.names_add (indexed : g.Indexed) (added : g.add n = .ok g') :
    g'.names = g.names ++ [n.name] := by
  rw [names, indexed.nodes_add added, List.map_map, List.map_append, names]
  rfl

theorem Indexed.add (indexed : g.Indexed) (added : g.add n = .ok g') : g'.Indexed := by
  have fresh := indexed.fresh_of_add added
  rw [indexed.add_eq fresh, Except.ok.injEq] at added
  rw [← added]
  exact ((indexed.insert fresh).mapNodes fun _ => name_feed).register

theorem Indexed.has_of_add (indexed : g.Indexed) (added : g.add n = .ok g')
    (has : g.has name = true) : g'.has name = true := by
  rw [(indexed.add added).has_iff, indexed.names_add added]
  exact List.mem_append_left _ (indexed.has_iff.1 has)

/-- An addition leaves the tensors of the nodes that are there as they are. -/
theorem Indexed.tensor?_add (indexed : g.Indexed) (added : g.add n = .ok g')
    (listed : name ∈ g.names) : g'.tensor? name = g.tensor? name := by
  obtain ⟨m, member, rfl⟩ := mem_names.1 listed
  have member' : feed n m ∈ g'.nodes := by
    rw [indexed.nodes_add added]
    exact List.mem_map_of_mem (List.mem_append_left _ member)
  have kept := (indexed.add added).tensor?_of_mem member'
  rwa [name_feed, tensor_feed, ← indexed.tensor?_of_mem member] at kept

/-! ### One removal -/

/-- A node once another one is gone. -/
def detach (gone : Node) (n : Node) : Node :=
  { n with
    outputs := if n.name ∈ gone.inputs then without gone.name n.outputs else n.outputs
    inputs := if n.name ∈ gone.outputs then without gone.name n.inputs else n.inputs }

@[simp] theorem name_detach : (detach m n).name = n.name := rfl

@[simp] theorem kind_detach : (detach m n).kind = n.kind := rfl

/-- A node loses no input but the one that is gone. -/
theorem mem_inputs_detach_iff (other : name ≠ m.name) :
    name ∈ (detach m n).inputs ↔ name ∈ n.inputs := by
  by_cases told : n.name ∈ m.outputs <;> simp [detach, told, other]

/-- The graph that a removal leaves before the slots are packed. -/
def dropped (g : Graph) (n : Node) (slot : Nat) : Graph :=
  { (g.vacate n.name slot).mapNodes (detach n) with
    inputs := without n.name g.inputs
    outputs := without n.name g.outputs }

/-- Telling the nodes before, then those behind, is one change of all nodes. -/
theorem Indexed.foldl_detach (indexed : g.Indexed) (gone : Node) :
    gone.outputs.foldl
        (fun g s => g.modify s fun m => { m with inputs := without gone.name m.inputs })
        (gone.inputs.foldl
          (fun g p => g.modify p fun m => { m with outputs := without gone.name m.outputs }) g) =
      g.mapNodes (detach gone) := by
  rw [indexed.foldl_modify_eq_of_idem
      (fun m => { m with outputs := without gone.name m.outputs }) (fun _ => rfl)
      (fun m => by simp [without]) gone.inputs,
    (indexed.mapNodes fun m => by split <;> rfl).foldl_modify_eq_of_idem
      (fun m => { m with inputs := without gone.name m.inputs }) (fun _ => rfl)
      (fun m => by simp [without]) gone.outputs,
    mapNodes_mapNodes]
  apply mapNodes_congr
  intro m _
  by_cases before : m.name ∈ gone.inputs <;> by_cases behind : m.name ∈ gone.outputs <;>
    simp [detach, before, behind]

/-- A removal takes the node out and tells its neighbours on both sides. -/
theorem Indexed.remove_eq (indexed : g.Indexed) (member : n ∈ g.nodes) :
    ∃ slot, g.index.get? n.name = some slot ∧
      g.remove n.name = (g.dropped n slot).packIfSparse := by
  obtain ⟨slot, lies⟩ := mem_nodes.1 member
  have at_slot := (indexed n.name slot).2 ⟨n, lies, rfl⟩
  refine ⟨slot, at_slot, ?_⟩
  rw [Graph.remove, at_slot, indexed.node?_of_mem member]
  simp only [(indexed.vacate at_slot).foldl_detach n]
  rfl

/-- A name that is missing changes nothing. -/
theorem Indexed.remove_of_not_mem (indexed : g.Indexed) (absent : name ∉ g.names) :
    g.remove name = g := by
  rw [Graph.remove, indexed.node?_eq_none_iff.2 absent]
  cases g.index.get? name <;> rfl

theorem Indexed.nodes_dropped {slot : Nat} (indexed : g.Indexed)
    (at_slot : g.index.get? n.name = some slot) :
    (g.dropped n slot).nodes = (g.nodes.filter (·.name ≠ n.name)).map (detach n) := by
  rw [← indexed.nodes_vacate at_slot, ← nodes_mapNodes]
  rfl

theorem Indexed.nodes_remove (indexed : g.Indexed) (member : n ∈ g.nodes) :
    (g.remove n.name).nodes = (g.nodes.filter (·.name ≠ n.name)).map (detach n) := by
  obtain ⟨slot, at_slot, removed⟩ := indexed.remove_eq member
  rw [removed, nodes_packIfSparse, indexed.nodes_dropped at_slot]

/-- Packing changes no more than where nodes lie. -/
theorem packIfSparse_eq (g : Graph) : g.packIfSparse =
    { g with
      slots := g.packIfSparse.slots
      index := g.packIfSparse.index
      vacant := g.packIfSparse.vacant } := by
  rw [packIfSparse]
  split <;> rfl

theorem Indexed.remove (indexed : g.Indexed) (name : String) : (g.remove name).Indexed := by
  by_cases present : name ∈ g.names
  · obtain ⟨n, member, rfl⟩ := mem_names.1 present
    obtain ⟨slot, at_slot, removed⟩ := indexed.remove_eq member
    rw [removed]
    refine Indexed.packIfSparse ?_
    exact (indexed.vacate at_slot).mapNodes fun _ => rfl
  · rwa [indexed.remove_of_not_mem present]

end TensorGraph.Graph
