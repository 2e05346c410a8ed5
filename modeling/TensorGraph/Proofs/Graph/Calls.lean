import TensorGraph.Proofs.Graph.Observation

/-!
Calls on graphs. A caller holds any number of graphs under names of its own, makes new ones, changes
them, copies, restricts and unites them. Alike graphs stay alike under every call, so a copy can
stand in for its original in any run of calls.
-/

namespace TensorGraph.Graph

variable {g g' h h' : Graph} {n : Node} {name : String} {order : List String}

/-! ### Changes of one graph -/

theorem Indexed.alike_self (indexed : g.Indexed) : Alike g g :=
  ⟨indexed, indexed, rfl, rfl, rfl, rfl, rfl⟩

theorem alike_clone (indexed : g.Indexed) : Alike g g.clone where
  indexed := indexed
  indexed' := indexed.clone
  name_eq := by rw [clone_eq]
  nodes_eq := nodes_clone
  inputs_eq := by rw [clone_eq]
  outputs_eq := by rw [clone_eq]
  metadata_eq := by rw [clone_eq]

/-- Two results of one call: alike graphs, or the same error. -/
inductive AlikeResults : Except Error Graph → Except Error Graph → Prop where
  | ok {g h : Graph} (alike : Alike g h) : AlikeResults (.ok g) (.ok h)
  | error (e : Error) : AlikeResults (.error e) (.error e)

theorem alikeResults_of_eq {result result' : Except Error Graph} (same : result' = result)
    (indexed : ∀ g, result = .ok g → g.Indexed) : AlikeResults result result' := by
  subst same
  cases result' with
  | ok g => exact .ok (indexed g rfl).alike_self
  | error e => exact .error e

section Changes

variable (alike : Alike g h)

include alike

theorem Alike.insert (fresh : n.name ∉ g.names) : Alike (g.insert n) (h.insert n) where
  indexed := alike.indexed.insert fresh
  indexed' := by
    rw [← alike.names_eq] at fresh
    exact alike.indexed'.insert fresh
  name_eq := alike.name_eq
  nodes_eq := by rw [nodes_insert, nodes_insert, alike.nodes_eq]
  inputs_eq := alike.inputs_eq
  outputs_eq := alike.outputs_eq
  metadata_eq := alike.metadata_eq

theorem Alike.mapNodes {change : Node → Node} (keeps : ∀ n, (change n).name = n.name) :
    Alike (g.mapNodes change) (h.mapNodes change) where
  indexed := alike.indexed.mapNodes keeps
  indexed' := alike.indexed'.mapNodes keeps
  name_eq := alike.name_eq
  nodes_eq := by rw [nodes_mapNodes, nodes_mapNodes, alike.nodes_eq]
  inputs_eq := alike.inputs_eq
  outputs_eq := alike.outputs_eq
  metadata_eq := alike.metadata_eq

theorem Alike.register : Alike (g.register n) (h.register n) where
  indexed := alike.indexed.register
  indexed' := alike.indexed'.register
  name_eq := by rw [name_register, name_register, alike.name_eq]
  nodes_eq := by rw [nodes_register, nodes_register, alike.nodes_eq]
  inputs_eq := by rw [inputs_register, inputs_register, alike.inputs_eq]
  outputs_eq := by rw [outputs_register, outputs_register, alike.outputs_eq]
  metadata_eq := by rw [metadata_register, metadata_register, alike.metadata_eq]

theorem Alike.packIfSparse : Alike g.packIfSparse h.packIfSparse where
  indexed := alike.indexed.packIfSparse
  indexed' := alike.indexed'.packIfSparse
  name_eq := by rw [packIfSparse_eq g, packIfSparse_eq h, alike.name_eq]
  nodes_eq := by rw [nodes_packIfSparse, nodes_packIfSparse, alike.nodes_eq]
  inputs_eq := by rw [packIfSparse_eq g, packIfSparse_eq h, alike.inputs_eq]
  outputs_eq := by rw [packIfSparse_eq g, packIfSparse_eq h, alike.outputs_eq]
  metadata_eq := by rw [packIfSparse_eq g, packIfSparse_eq h, alike.metadata_eq]

theorem Alike.dropped {slot slot' : Nat} (at_slot : g.index.get? n.name = some slot)
    (at_slot' : h.index.get? n.name = some slot') :
    Alike (g.dropped n slot) (h.dropped n slot') where
  indexed := (alike.indexed.vacate at_slot).mapNodes fun _ => rfl
  indexed' := (alike.indexed'.vacate at_slot').mapNodes fun _ => rfl
  name_eq := alike.name_eq
  nodes_eq := by
    rw [alike.indexed.nodes_dropped at_slot, alike.indexed'.nodes_dropped at_slot', alike.nodes_eq]
  inputs_eq := congrArg (without n.name) alike.inputs_eq
  outputs_eq := congrArg (without n.name) alike.outputs_eq
  metadata_eq := alike.metadata_eq

/-- An addition succeeds on both graphs or fails on both. -/
theorem Alike.add (n : Node) : AlikeResults (g.add n) (h.add n) := by
  by_cases present : n.name ∈ g.names
  · have has := alike.indexed.has_iff.2 present
    rw [Graph.add, Graph.add, alike.has_eq, if_pos has, if_pos has]
    exact .error _
  · have absent := present
    rw [← alike.names_eq] at absent
    rw [alike.indexed.add_eq present, alike.indexed'.add_eq absent]
    exact .ok (((alike.insert present).mapNodes fun _ => name_feed).register)

theorem Alike.remove (name : String) : Alike (g.remove name) (h.remove name) := by
  by_cases present : name ∈ g.names
  · obtain ⟨n, member, rfl⟩ := mem_names.1 present
    obtain ⟨slot, at_slot, removed⟩ := alike.indexed.remove_eq member
    obtain ⟨slot', at_slot', removed'⟩ := alike.indexed'.remove_eq (alike.nodes_eq ▸ member)
    rw [removed, removed']
    exact (alike.dropped at_slot at_slot').packIfSparse
  · have absent := present
    rw [← alike.names_eq] at absent
    rwa [alike.indexed.remove_of_not_mem present, alike.indexed'.remove_of_not_mem absent]

theorem Alike.modify {change : Node → Node} (keeps : ∀ n, (change n).name = n.name) :
    Alike (g.modify name change) (h.modify name change) := by
  rw [alike.indexed.modify_eq, alike.indexed'.modify_eq]
  apply alike.mapNodes
  intro n
  split
  · exact keeps n
  · rfl

theorem Alike.setMeta (key : String) (value : Value) :
    Alike (g.setMeta key value) (h.setMeta key value) where
  indexed := alike.indexed
  indexed' := alike.indexed'
  name_eq := alike.name_eq
  nodes_eq := alike.nodes_eq
  inputs_eq := alike.inputs_eq
  outputs_eq := alike.outputs_eq
  metadata_eq := congrArg (fun metadata => metadata.put key value) alike.metadata_eq

/-! ### Graphs made from graphs -/

/-- Copies of alike graphs do not differ at all. -/
theorem Alike.clone_eq : h.clone = g.clone := by
  rw [clone, clone, alike.name_eq, alike.nodes_eq, alike.inputs_eq, alike.outputs_eq,
    alike.metadata_eq]

theorem Alike.subgraph_eq (names : List String) : h.subgraph names = g.subgraph names := by
  have select_eq : h.select = g.select := by
    funext selected part name
    rw [select, alike.node?_eq, ← select]
  rw [subgraph, subgraph, alike.has_eq, alike.name_eq, select_eq]

theorem Alike.merge_eq (alike' : Alike g' h') (stem : Option String) :
    h.merge h' stem = g.merge g' stem := by
  rw [merge, merge, alike.clone_eq, alike.inputs_eq, alike.outputs_eq, alike'.nodes_eq,
    alike'.name_eq, alike'.inputs_eq, alike'.outputs_eq]

end Changes

/-! ### Calls -/

/-- A call on graphs that a caller holds under names: it makes a graph under a name, or changes
the one that has it. -/
inductive Call where
  | new (target : String) (title : Value)
  | add (target : String) (n : Node)
  | remove (target name : String)
  | clone (source target : String)
  | subgraph (source target : String) (names : List String)
  | merge (one two target : String) (stem : Option String)
  | load (target : String) (doc : Value)
  | setTensor (target name : String) (tensor : Option Reference)
  | setNodeMeta (target name key : String) (value : Value)
  | setMeta (target key : String) (value : Value)

/-- The name of the graph that a call makes or changes. -/
def Call.target : Call → String
  | .new target _ | .add target _ | .remove target _ | .clone _ target | .subgraph _ target _
  | .merge _ _ target _ | .load target _ | .setTensor target _ _ | .setNodeMeta target _ _ _
  | .setMeta target _ _ => target

/-- The graph that a call makes or leaves. -/
def Call.result (graphs : String → Graph) : Call → Except Error Graph
  | .new _ title => .ok (.empty title)
  | .add target n => (graphs target).add n
  | .remove target name => .ok ((graphs target).remove name)
  | .clone source _ => .ok (graphs source).clone
  | .subgraph source _ names => .ok ((graphs source).subgraph names)
  | .merge one two _ stem => (graphs one).merge (graphs two) stem
  | .load _ doc => Document.toGraph doc
  | .setTensor target name tensor => .ok ((graphs target).setTensor name tensor)
  | .setNodeMeta target name key value => .ok ((graphs target).setNodeMeta name key value)
  | .setMeta target key value => .ok ((graphs target).setMeta key value)

/-- What is seen after each call of a run: the answers of all graphs to all queries, or the error of
a call that fails and leaves the graphs as they were. -/
def answers : List Call → (String → Graph) → List (Except Error (String → View))
  | [], _ => []
  | call :: rest, graphs =>
    match call.result graphs with
    | .ok g =>
      let graphs := Function.update graphs call.target g
      .ok (fun name => (graphs name).view) :: answers rest graphs
    | .error e => .error e :: answers rest graphs

variable {graphs graphs' : String → Graph}

/-- One call does the same to graphs that are alike. -/
theorem Call.alikeResults (alike : ∀ name, Alike (graphs name) (graphs' name)) (call : Call) :
    AlikeResults (call.result graphs) (call.result graphs') := by
  cases call with
  | new target title => exact .ok (tidy_empty title).indexed.alike_self
  | add target n => exact (alike target).add n
  | remove target name => exact .ok ((alike target).remove name)
  | clone source target =>
      rw [result, result, (alike source).clone_eq]
      exact .ok (alike source).indexed.clone.alike_self
  | subgraph source target names =>
      rw [result, result, (alike source).subgraph_eq]
      exact .ok ((alike source).indexed.subgraph names).alike_self
  | merge one two target stem =>
      apply alikeResults_of_eq ((alike one).merge_eq (alike two) stem)
      exact fun g merged => (alike one).indexed.merge merged
  | load target doc => exact alikeResults_of_eq rfl fun g loaded => indexed_of_toGraph loaded
  | setTensor target name tensor => exact .ok ((alike target).modify fun _ => rfl)
  | setNodeMeta target name key value => exact .ok ((alike target).modify fun _ => rfl)
  | setMeta target key value => exact .ok ((alike target).setMeta key value)

/-- Where a caller holds alike graphs, one of them can be exchanged for a graph that is alike. -/
theorem alike_update (made : Alike g h) (alike : ∀ name, Alike (graphs name) (graphs' name))
    (mine name : String) :
    Alike (Function.update graphs mine g name) (Function.update graphs' mine h name) := by
  by_cases same : name = mine
  · rw [same, Function.update_self, Function.update_self]
    exact made
  · rw [Function.update_of_ne same, Function.update_of_ne same]
    exact alike name

/-- No run of calls tells graphs apart that are alike. -/
theorem answers_eq (calls : List Call) (alike : ∀ name, Alike (graphs name) (graphs' name)) :
    answers calls graphs' = answers calls graphs := by
  induction calls generalizing graphs graphs' with
  | nil => rfl
  | cons call rest ih =>
      have results := call.alikeResults alike
      rw [answers, answers]
      generalize call.result graphs = result, call.result graphs' = result' at results
      cases results with
      | @ok g h made =>
          have next := alike_update made alike call.target
          have views : (fun name => (Function.update graphs' call.target h name).view) =
              fun name => (Function.update graphs call.target g name).view :=
            funext fun name => (next name).view_eq
          simp only [ih next, views]
      | error e => simp only [ih alike]

/-! ### The store of a graph and of its copy -/

theorem Consistent.nodup_registered (consistent : g.Consistent order) :
    g.inputs.Nodup ∧ g.outputs.Nodup := by
  rw [consistent.registered.inputs_eq, consistent.registered.outputs_eq]
  exact ⟨consistent.indexed.nodup_filter _, consistent.indexed.nodup_filter _⟩

theorem Consistent.length_slots_le (consistent : g.Consistent order) :
    g.slots.length ≤ 2 * g.nodeCount := by
  have few := consistent.accounted.vacant_le
  rw [length_slots, ← consistent.accounted.vacant_eq, consistent.indexed.nodeCount_eq]
  omega

/-- **The store.** After every history the index sends each name to the slot of the node that has
it, and to no other; vacant slots are counted, and there are never more of them than nodes; the
nodes stand in the order in which they were put in, and the inputs and outputs of the graph are
just its input and output nodes in that order. A copy lies in other slots, without vacant ones, and
neither queries nor runs of calls tell it from the graph. -/
theorem store_consistent_and_copy_alike (history : g.History order) :
    g.Indexed ∧ g.vacant = g.slots.countP Option.isNone ∧ g.vacant ≤ g.nodeCount ∧
      g.slots.length ≤ 2 * g.nodeCount ∧ g.names = order ∧ order.Nodup ∧ g.Registered ∧
      g.inputs.Nodup ∧ g.outputs.Nodup ∧ g.clone.slots = g.nodes.map some ∧
      g.clone.view = g.view ∧
      ∀ (calls : List Call) (graphs : String → Graph) (mine : String),
        (∀ other, (graphs other).Reached) →
          answers calls (Function.update graphs mine g.clone) =
            answers calls (Function.update graphs mine g) := by
  have consistent := history.consistent
  have indexed := consistent.indexed
  have nodup := consistent.nodup_registered
  have copy := alike_clone indexed
  refine ⟨indexed, consistent.accounted.vacant_eq, ?_, consistent.length_slots_le,
    consistent.names_eq, ?_, consistent.registered, nodup.1, nodup.2, ?_, copy.view_eq, ?_⟩
  · rw [indexed.nodeCount_eq]
    exact consistent.accounted.vacant_le
  · rw [← consistent.names_eq]
    exact indexed.nodup_names
  · rw [clone_eq]
  · intro calls graphs mine reached
    apply answers_eq
    intro name
    by_cases same : name = mine
    · rw [same, Function.update_self, Function.update_self]
      exact copy
    · rw [Function.update_of_ne same, Function.update_of_ne same]
      exact (reached name).indexed.alike_self

/-- An input, an operation on it that is removed again, and an output. -/
def thinned : Except Error Graph := do
  let g ← (empty (.text "g")).add { name := "a", kind := .input }
  let g ← g.add { name := "b", kind := .op, inputs := ["a"] }
  let g ← g.add { name := "c", kind := .output, inputs := ["b"] }
  return g.remove "b"

/-- The copy has one slot less, and the same is seen of it when both lose and gain a node. -/
theorem copy_alike_thinned : ∃ g, thinned = .ok g ∧ g.History ["a", "c"] ∧
    g.names = ["a", "c"] ∧ g.outputs.Nodup ∧ g.vacant = 1 ∧ g.vacant ≤ g.nodeCount ∧
    g.slots.length = 3 ∧ g.clone.slots.length = 2 ∧
    answers [.remove "g" "a", .add "g" { name := "a", kind := .const }]
        (Function.update (fun title => empty (.text title)) "g" g.clone) =
      answers [.remove "g" "a", .add "g" { name := "a", kind := .const }]
        (Function.update (fun title => empty (.text title)) "g" g) := by
  obtain ⟨g, made⟩ : ∃ g, thinned = .ok g := ⟨_, rfl⟩
  have history : g.History ["a", "c"] := by
    obtain ⟨first, one, made'⟩ := bind_eq_ok_iff.1 made
    obtain ⟨second, two, made'⟩ := bind_eq_ok_iff.1 made'
    obtain ⟨third, three, made'⟩ := bind_eq_ok_iff.1 made'
    cases made'
    have order : without "b" ([] ++ ["a"] ++ ["b"] ++ ["c"]) = ["a", "c"] := by decide
    rw [← order]
    exact .remove (.add (.add (.add (.empty _) one) two) three) "b"
  have counts : g.vacant = 1 ∧ g.slots.length = 3 ∧ g.clone.slots.length = 2 := by
    cases made
    exact ⟨rfl, rfl, rfl⟩
  obtain ⟨_, _, few, _, names_eq, _, _, _, nodup, _, _, same⟩ :=
    store_consistent_and_copy_alike history
  exact ⟨g, made, history, names_eq, nodup, counts.1, few, counts.2.1, counts.2.2,
    same _ _ "g" fun title => .empty (.text title)⟩

end TensorGraph.Graph
