import TensorGraph.Proofs.Graph.Slots
import TensorGraph.Proofs.Graph.Successors

/-!
Histories that remember what was put in. Beside the graph stands a list that the program does not
keep: the names of the nodes in the order in which they came. Index, slots, nodes, inputs and
outputs of the graph all tell the same as this list, whatever was added, removed, copied,
restricted, united and loaded before.
-/

namespace TensorGraph.Graph

variable {g g' base : Graph} {n : Node} {name : String} {order : List String} {ns : List Node}

/-- A graph that some history leads to, and the names of its nodes in the order in which that
history put them in. Operations that fail make no graph. -/
inductive History : Graph → List String → Prop where
  | empty (name : Value) : History (.empty name) []
  | add {g g' : Graph} {order : List String} {n : Node} (before : History g order)
      (added : g.add n = .ok g') : History g' (order ++ [n.name])
  | remove {g : Graph} {order : List String} (before : History g order) (name : String) :
      History (g.remove name) (without name order)
  | clone {g : Graph} {order : List String} (before : History g order) : History g.clone order
  | subgraph {g : Graph} {order : List String} (before : History g order) (names : List String) :
      History (g.subgraph names) ((distinct names).filter (· ∈ order))
  | merge {g other union : Graph} {order order' : List String} {stem : Option String}
      (one : History g order) (two : History other order')
      (merged : g.merge other stem = .ok union) :
      History union (order ++ order'.map (renamed stem))
  | load {start g : Graph} {doc : Value} {records : List Value}
      (opened : Document.opened doc = .ok (start, records))
      (loaded : Document.toGraph doc = .ok g) : History g (records.filterMap recordName?)

/-- All that a graph keeps about its nodes tells the same, and their order is this one. -/
structure Consistent (g : Graph) (order : List String) : Prop where
  indexed : g.Indexed
  accounted : g.Accounted
  registered : g.Registered
  names_eq : g.names = order

/-! ### One node -/

/-- A graph without nodes, whatever its name and its metadata are. -/
theorem consistent_of_no_slots (slots : g.slots = []) (index : g.index = .empty)
    (vacant : g.vacant = 0) (inputs : g.inputs = []) (outputs : g.outputs = []) :
    g.Consistent [] := by
  have nodes : g.nodes = [] := by
    rw [Graph.nodes, slots]
    rfl
  refine ⟨indexed_of_no_slots slots index, accounted_of_packed [] slots vacant, ⟨?_, ?_⟩, ?_⟩
  · rw [inputs, nodes]
    rfl
  · rw [outputs, nodes]
    rfl
  · rw [Graph.names, nodes]
    rfl

theorem Consistent.add (consistent : g.Consistent order) (added : g.add n = .ok g') :
    g'.Consistent (order ++ [n.name]) where
  indexed := consistent.indexed.add added
  accounted := consistent.accounted.add consistent.indexed added
  registered := consistent.registered.add consistent.indexed added
  names_eq := by rw [consistent.indexed.names_add added, consistent.names_eq]

theorem Indexed.names_remove (indexed : g.Indexed) (name : String) :
    (g.remove name).names = without name g.names := by
  by_cases present : name ∈ g.names
  · obtain ⟨n, member, rfl⟩ := mem_names.1 present
    rw [names, indexed.nodes_remove member, List.map_map, names, without, List.filter_map]
    rfl
  · rw [indexed.remove_of_not_mem present, without_of_not_mem present]

theorem Consistent.remove (consistent : g.Consistent order) (name : String) :
    (g.remove name).Consistent (without name order) where
  indexed := consistent.indexed.remove name
  accounted := consistent.accounted.remove consistent.indexed name
  registered := by
    by_cases present : name ∈ g.names
    · obtain ⟨n, member, rfl⟩ := mem_names.1 present
      exact consistent.registered.remove consistent.indexed member
    · rw [consistent.indexed.remove_of_not_mem present]
      exact consistent.registered
  names_eq := by rw [consistent.indexed.names_remove, consistent.names_eq]

/-- A node that is put in and noted, without regard to its neighbours. -/
theorem Consistent.insert_register (consistent : g.Consistent order) (fresh : n.name ∉ order) :
    ((g.insert n).register n).Consistent (order ++ [n.name]) where
  indexed := by
    rw [← consistent.names_eq] at fresh
    exact (consistent.indexed.insert fresh).register
  accounted := consistent.accounted.insert.register
  registered := by
    constructor
    · rw [inputs_register, nodes_register, nodes_insert, ofKind_append,
        ← consistent.registered.inputs_eq]
      rfl
    · rw [outputs_register, nodes_register, nodes_insert, ofKind_append,
        ← consistent.registered.outputs_eq]
      rfl
  names_eq := by
    rw [Graph.names, nodes_register, ← Graph.names, names_insert, consistent.names_eq]

/-- A change of one node that keeps its name and its kind. -/
theorem Consistent.modify (consistent : g.Consistent order) {change : Node → Node}
    (names : ∀ n, (change n).name = n.name) (kinds : ∀ n, (change n).kind = n.kind) :
    (g.modify name change).Consistent order := by
  have indexed := consistent.indexed
  have names' (n : Node) : (if n.name = name then change n else n).name = n.name := by
    split
    · exact names n
    · rfl
  have kinds' (n : Node) : (if n.name = name then change n else n).kind = n.kind := by
    split
    · exact kinds n
    · rfl
  refine ⟨indexed.modify names, consistent.accounted.modify indexed, ⟨?_, ?_⟩, ?_⟩
  · rw [indexed.modify_eq, nodes_mapNodes, ofKind_map _ names' kinds']
    exact consistent.registered.inputs_eq
  · rw [indexed.modify_eq, nodes_mapNodes, ofKind_map _ names' kinds']
    exact consistent.registered.outputs_eq
  · rw [indexed.modify_eq, Graph.names, nodes_mapNodes, List.map_map, ← consistent.names_eq]
    exact List.map_congr_left fun n _ => names' n

/-! ### Many nodes -/

theorem Consistent.clone (consistent : g.Consistent order) : g.clone.Consistent order where
  indexed := consistent.indexed.clone
  accounted := accounted_clone
  registered := by
    constructor
    · rw [nodes_clone, clone_eq]
      exact consistent.registered.inputs_eq
    · rw [nodes_clone, clone_eq]
      exact consistent.registered.outputs_eq
  names_eq := by rw [names, nodes_clone, ← names, consistent.names_eq]

/-- A restriction is consistent as soon as the nodes that are selected can be found. -/
theorem Indexed.consistent_subgraph (indexed : g.Indexed) (names : List String) :
    (g.subgraph names).Consistent ((distinct names).filter (· ∈ g.names)) := by
  apply indexed.subgraph_induction
  · exact fun _ => consistent_of_no_slots rfl rfl rfl rfl rfl
  · exact fun _ _ _ before fresh => before.insert_register fresh

theorem Consistent.subgraph (consistent : g.Consistent order) (names : List String) :
    (g.subgraph names).Consistent ((distinct names).filter (· ∈ order)) := by
  rw [← consistent.names_eq]
  exact consistent.indexed.consistent_subgraph names

/-- New names change the names of input and output nodes alike. -/
theorem ofKind_renamedNode (kind : NodeKind) (stem : Option String) :
    ofKind kind (ns.map (renamedNode stem)) = (ofKind kind ns).map (renamed stem) := by
  rw [ofKind, List.filter_map, List.map_map, ofKind, List.map_map]
  rfl

theorem Consistent.merge {other union : Graph} {order' : List String} {stem : Option String}
    (consistent : g.Consistent order) (consistent' : other.Consistent order')
    (merged : g.merge other stem = .ok union) :
    union.Consistent (order ++ order'.map (renamed stem)) := by
  have nodes_eq := nodes_union merged
  refine ⟨consistent.indexed.merge merged, accounted_union merged, ⟨?_, ?_⟩, ?_⟩
  · rw [nodes_eq, ofKind_append, ofKind_renamedNode, ← consistent.registered.inputs_eq,
      ← consistent'.registered.inputs_eq, union_eq merged]
  · rw [nodes_eq, ofKind_append, ofKind_renamedNode, ← consistent.registered.outputs_eq,
      ← consistent'.registered.outputs_eq, union_eq merged]
  · rw [names, nodes_eq, List.map_append, List.map_map, ← consistent.names_eq,
      ← consistent'.names_eq, names, names, List.map_map]
    rfl

theorem consistent_of_toGraph {doc : Value} {records : List Value}
    (opened : Document.opened doc = .ok (base, records))
    (loaded : Document.toGraph doc = .ok g) : g.Consistent (records.filterMap recordName?) := by
  apply toGraph_induction (P := fun g read => g.Consistent (read.filterMap recordName?)) _ _ _
    opened loaded
  · intro g g' n record read before made added
    rw [List.filterMap_append, List.filterMap_cons_some (recordName?_of_nodeOf made)]
    exact before.add added
  · exact fun _ _ _ _ before => before.modify (fun _ => rfl) fun _ => rfl
  · exact fun _ _ => consistent_of_no_slots rfl rfl rfl rfl rfl

/-- Every history leaves a consistent graph. -/
theorem History.consistent (history : g.History order) : g.Consistent order := by
  induction history with
  | empty name => exact consistent_of_no_slots rfl rfl rfl rfl rfl
  | add _ added ih => exact ih.add added
  | remove _ name ih => exact ih.remove name
  | clone _ ih => exact ih.clone
  | subgraph _ names ih => exact ih.subgraph names
  | merge _ _ merged ih ih' => exact ih.merge ih' merged
  | load opened loaded => exact consistent_of_toGraph opened loaded

/-! ### Nodes that others change -/

/-- A graph that some history leads to in which whoever holds a node may change it as well: its
tensor, its metadata, its operation, and its edges, as another graph does that shares the node. Its
name and its kind are fixed. -/
inductive Maintained : Graph → Prop where
  | empty (name : Value) : Maintained (.empty name)
  | add {g g' : Graph} {n : Node} (before : Maintained g) (added : g.add n = .ok g') :
      Maintained g'
  | remove {g : Graph} (before : Maintained g) (name : String) : Maintained (g.remove name)
  | modify {g : Graph} {change : Node → Node} (before : Maintained g) (name : String)
      (names : ∀ n, (change n).name = n.name) (kinds : ∀ n, (change n).kind = n.kind) :
      Maintained (g.modify name change)
  | setMeta {g : Graph} (before : Maintained g) (key : String) (value : Value) :
      Maintained (g.setMeta key value)
  | clone {g : Graph} (before : Maintained g) : Maintained g.clone
  | subgraph {g : Graph} (before : Maintained g) (names : List String) :
      Maintained (g.subgraph names)
  | merge {g other union : Graph} {stem : Option String} (one : Maintained g)
      (two : Maintained other) (merged : g.merge other stem = .ok union) : Maintained union
  | load {g : Graph} {doc : Value} (loaded : Document.toGraph doc = .ok g) : Maintained g

theorem Maintained.foldlM_add (maintained : g.Maintained)
    (added : ns.foldlM Graph.add g = .ok g') : g'.Maintained :=
  foldlM_add_induction (fun _ _ _ before added => before.add added) maintained added

theorem Consistent.setMeta (consistent : g.Consistent order) (key : String) (value : Value) :
    (g.setMeta key value).Consistent order where
  indexed := consistent.indexed
  accounted := ⟨consistent.accounted.vacant_eq, consistent.accounted.vacant_le⟩
  registered := ⟨consistent.registered.inputs_eq, consistent.registered.outputs_eq⟩
  names_eq := consistent.names_eq

/-- Such changes leave a graph consistent, too. -/
theorem Maintained.exists_consistent (maintained : g.Maintained) : ∃ order, g.Consistent order := by
  induction maintained with
  | empty name => exact ⟨[], consistent_of_no_slots rfl rfl rfl rfl rfl⟩
  | add _ added ih =>
      obtain ⟨order, consistent⟩ := ih
      exact ⟨_, consistent.add added⟩
  | remove _ name ih =>
      obtain ⟨order, consistent⟩ := ih
      exact ⟨_, consistent.remove name⟩
  | modify _ name names kinds ih =>
      obtain ⟨order, consistent⟩ := ih
      exact ⟨_, consistent.modify names kinds⟩
  | setMeta _ key value ih =>
      obtain ⟨order, consistent⟩ := ih
      exact ⟨_, consistent.setMeta key value⟩
  | clone _ ih =>
      obtain ⟨order, consistent⟩ := ih
      exact ⟨_, consistent.clone⟩
  | subgraph _ names ih =>
      obtain ⟨order, consistent⟩ := ih
      exact ⟨_, consistent.subgraph names⟩
  | merge _ _ merged ih ih' =>
      obtain ⟨order, consistent⟩ := ih
      obtain ⟨order', consistent'⟩ := ih'
      exact ⟨_, consistent.merge consistent' merged⟩
  | load loaded =>
      obtain ⟨_, opened, _⟩ := bind_eq_ok_iff.1 loaded
      exact ⟨_, consistent_of_toGraph opened loaded⟩

end TensorGraph.Graph
