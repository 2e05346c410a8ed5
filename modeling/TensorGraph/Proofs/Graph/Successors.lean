import TensorGraph.Proofs.Graph.Edits

/-!
What every run of additions and removals keeps. Successor lists are updated from both ends, one
neighbour at a time; over a whole run they stay what a glance at the inputs gives: the successors
of a node are the nodes from it on that take an input from it. A node that was added before one
of its inputs never becomes a successor of that input, so "from it on" is part of the law.
-/

namespace TensorGraph.Graph

variable {g g' : Graph} {n m : Node} {name : String} {ns before behind : List Node}

/-- The names of the nodes that take an input from a node. -/
def takers (name : String) (ns : List Node) : List String :=
  (ns.filter fun n => name ∈ n.inputs).map Node.name

/-- The successors of each node are those that take an input from it, among itself and the nodes
behind it. -/
def Linked : List Node → Prop
  | [] => True
  | n :: rest => n.outputs = takers n.name (n :: rest) ∧ Linked rest

/-- The successors of each node are all nodes that take an input from it, each listed once. -/
structure Tied (g : Graph) : Prop where
  indexed : g.Indexed
  nodup_outputs : ∀ n ∈ g.nodes, n.outputs.Nodup
  mem_outputs_iff : ∀ n ∈ g.nodes, ∀ taker, taker ∈ n.outputs ↔ taker ∈ takers n.name g.nodes

/-- The names of the nodes of one kind. -/
def ofKind (kind : NodeKind) (ns : List Node) : List String :=
  (ns.filter fun n => n.kind = kind).map Node.name

/-- The inputs and outputs of a graph are its input and output nodes. -/
structure Registered (g : Graph) : Prop where
  inputs_eq : g.inputs = ofKind .input g.nodes
  outputs_eq : g.outputs = ofKind .output g.nodes

/-- What additions and removals keep. -/
structure Tidy (g : Graph) : Prop where
  indexed : g.Indexed
  linked : Linked g.nodes
  registered : g.Registered

/-- A graph that additions of fresh nodes and removals lead to. An addition that fails leaves the
graph as it was, and so does the removal of a name that is missing. -/
inductive Edited : Graph → Prop where
  | empty (name : Value) : Edited (.empty name)
  | add {g g' : Graph} {n : Node} (before : Edited g) (fresh : n.outputs = [])
      (added : g.add n = .ok g') : Edited g'
  | remove {g : Graph} (before : Edited g) (name : String) : Edited (g.remove name)
  | setMeta {g : Graph} (before : Edited g) (key : String) (value : Value) :
      Edited (g.setMeta key value)

/-! ### The nodes that take an input -/

theorem mem_takers {taker : String} :
    taker ∈ takers name ns ↔ ∃ n ∈ ns, name ∈ n.inputs ∧ n.name = taker := by
  simp [takers, and_assoc]

@[simp] theorem takers_append (ms : List Node) :
    takers name (ns ++ ms) = takers name ns ++ takers name ms := by
  simp [takers]

/-- Whatever changes neither names nor the inputs of that name changes no taker. -/
theorem takers_map {change : Node → Node} (names : ∀ n, (change n).name = n.name)
    (inputs : ∀ n, name ∈ (change n).inputs ↔ name ∈ n.inputs) :
    takers name (ns.map change) = takers name ns := by
  rw [takers, List.filter_map, List.map_map, takers]
  simp only [Function.comp_def, names, inputs]

/-- Without the nodes of one name, that name is no taker any more. -/
theorem takers_filter (gone : String) :
    takers name (ns.filter (·.name ≠ gone)) = without gone (takers name ns) := by
  rw [takers, takers, without, List.filter_map, List.filter_filter, List.filter_filter]
  simp only [Function.comp_def, Bool.and_comm]

/-- Who takes an input from another node, once a node is gone. -/
theorem takers_detach (other : name ≠ n.name) :
    takers name ((ns.filter (·.name ≠ n.name)).map (detach n)) = without n.name (takers name ns) := by
  rw [takers_map (fun _ => name_detach) fun _ => mem_inputs_detach_iff other, takers_filter]

/-! ### Successors -/

/-- In a linked list of nodes, the successors of a node stand in the rest of the list. -/
theorem Linked.mem_of_mem_outputs (linked : Linked ns) (member : n ∈ ns) {successor : String}
    (listed : successor ∈ n.outputs) : successor ∈ ns.map Node.name := by
  induction ns with
  | nil => cases member
  | cons first rest ih =>
      rcases List.mem_cons.1 member with rfl | later
      · rw [linked.1, mem_takers] at listed
        obtain ⟨m, m_mem, _, rfl⟩ := listed
        exact List.mem_map_of_mem m_mem
      · exact List.mem_cons_of_mem _ (ih linked.2 later)

/-- The successors of a node are the takers among itself and the nodes behind it. -/
theorem Linked.outputs_eq_of_append (linked : Linked (before ++ n :: behind)) :
    n.outputs = takers n.name (n :: behind) := by
  induction before with
  | nil => exact linked.1
  | cons first rest ih => exact ih linked.2

theorem Linked.outputs_sublist (linked : Linked ns) (member : n ∈ ns) :
    n.outputs.Sublist (takers n.name ns) := by
  obtain ⟨before, behind, rfl⟩ := List.append_of_mem member
  rw [linked.outputs_eq_of_append, takers_append]
  exact List.sublist_append_right _ _

/-- A node that stands among the successors of another one takes an input from it. -/
theorem Linked.mem_inputs_of_mem_outputs (linked : Linked ns) (also : m ∈ ns)
    (listed : n.name ∈ m.outputs) (unique : ∀ k ∈ ns, k.name = n.name → k = n) :
    m.name ∈ n.inputs := by
  obtain ⟨before, behind, rfl⟩ := List.append_of_mem also
  rw [linked.outputs_eq_of_append, mem_takers] at listed
  obtain ⟨k, later, takes, named⟩ := listed
  rwa [unique k (List.mem_append_right _ later) named] at takes

theorem Linked.append_feed (linked : Linked ns) (fresh : n.outputs = []) :
    Linked ((ns ++ [n]).map (feed n)) := by
  induction ns with
  | nil =>
      by_cases self : n.name ∈ n.inputs <;> simp [Linked, takers, feed, fresh, self]
  | cons first rest ih =>
      refine ⟨?_, ih linked.2⟩
      change (feed n first).outputs = takers first.name ((first :: rest ++ [n]).map (feed n))
      rw [takers_map (fun _ => name_feed) (fun _ => by rw [inputs_feed]), takers_append,
        ← linked.1]
      by_cases taken : first.name ∈ n.inputs <;> simp [feed, takers, taken]

/-- One node less. Names differ, so the node that is gone was a successor only of nodes that it
takes an input from. -/
theorem Linked.filter_detach (linked : Linked ns)
    (unique : ∀ m ∈ ns, m.name = n.name → m = n) :
    Linked ((ns.filter (·.name ≠ n.name)).map (detach n)) := by
  induction ns with
  | nil => trivial
  | cons first rest ih =>
      have rest_linked := ih linked.2 fun m member => unique m (List.mem_cons_of_mem _ member)
      by_cases gone : first.name = n.name
      · simpa [gone] using rest_linked
      · have stays : (first :: rest).filter (·.name ≠ n.name) =
            first :: rest.filter (·.name ≠ n.name) := List.filter_cons_of_pos (by simpa using gone)
        rw [stays]
        refine ⟨?_, rest_linked⟩
        change (detach n first).outputs =
          takers first.name ((first :: rest.filter (·.name ≠ n.name)).map (detach n))
        rw [← stays, takers_detach gone, ← linked.1]
        by_cases taken : first.name ∈ n.inputs
        · simp [detach, taken]
        · -- Its successor list is left alone, and there was nothing to strike off.
          have no_taker : n.name ∉ first.outputs := fun listed =>
            taken (linked.mem_inputs_of_mem_outputs List.mem_cons_self listed unique)
          simp [detach, taken, without_of_not_mem no_taker]

theorem Indexed.nodup_takers (indexed : g.Indexed) (name : String) :
    (takers name g.nodes).Nodup :=
  indexed.nodup_filter _

/-- A name is a taker if and only if the node of that name takes the input. -/
theorem Indexed.mem_takers_iff (indexed : g.Indexed) (member : n ∈ g.nodes) :
    n.name ∈ takers name g.nodes ↔ name ∈ n.inputs := by
  rw [takers, indexed.name_mem_filter_iff member, decide_eq_true_eq]

/-- Each edge is listed once, and nothing else is. -/
theorem Tied.count_outputs (tied : g.Tied) (member : m ∈ g.nodes) (member' : n ∈ g.nodes) :
    m.outputs.count n.name = if m.name ∈ n.inputs then 1 else 0 := by
  have listed : n.name ∈ m.outputs ↔ m.name ∈ n.inputs := by
    rw [tied.mem_outputs_iff m member, tied.indexed.mem_takers_iff member']
  rw [(tied.nodup_outputs m member).count, if_congr listed rfl rfl]

/-- Removals keep all edges among the other nodes, on both of their ends. A node that lists the one
that is gone among its successors gives it an input, so it is told. -/
theorem Tied.remove (tied : g.Tied) (name : String) : (g.remove name).Tied := by
  have indexed := tied.indexed
  by_cases present : name ∈ g.names
  · obtain ⟨n, member, rfl⟩ := mem_names.1 present
    have left {m : Node} (stays : m ∈ g.nodes.filter (·.name ≠ n.name)) :
        m ∈ g.nodes ∧ m.name ≠ n.name := by simpa using stays
    have outputs_eq {m : Node} (also : m ∈ g.nodes) :
        (detach n m).outputs = without n.name m.outputs := by
      by_cases taken : m.name ∈ n.inputs
      · simp [detach, taken]
      · have unlisted : n.name ∉ m.outputs := by
          rwa [tied.mem_outputs_iff m also, indexed.mem_takers_iff member]
        simp [detach, taken, without_of_not_mem unlisted]
    refine ⟨indexed.remove n.name, ?_, ?_⟩
    · rw [indexed.nodes_remove member, List.forall_mem_map]
      intro m stays
      rw [outputs_eq (left stays).1]
      exact (tied.nodup_outputs m (left stays).1).filter _
    · rw [indexed.nodes_remove member, List.forall_mem_map]
      intro m stays taker
      rw [outputs_eq (left stays).1, mem_without, tied.mem_outputs_iff m (left stays).1,
        name_detach, takers_detach (left stays).2, mem_without]
  · rwa [indexed.remove_of_not_mem present]

/-! ### Inputs and outputs of the graph -/

@[simp] theorem ofKind_append (kind : NodeKind) (ms : List Node) :
    ofKind kind (ns ++ ms) = ofKind kind ns ++ ofKind kind ms := by
  simp [ofKind]

theorem ofKind_map (kind : NodeKind) {change : Node → Node}
    (names : ∀ n, (change n).name = n.name) (kinds : ∀ n, (change n).kind = n.kind) :
    ofKind kind (ns.map change) = ofKind kind ns := by
  rw [ofKind, List.filter_map, List.map_map, ofKind]
  simp only [Function.comp_def, names, kinds]

theorem ofKind_filter (kind : NodeKind) (gone : String) :
    ofKind kind (ns.filter (·.name ≠ gone)) = without gone (ofKind kind ns) := by
  rw [ofKind, ofKind, without, List.filter_map, List.filter_filter, List.filter_filter]
  simp only [Function.comp_def, Bool.and_comm]

theorem inputs_register : (g.register n).inputs = g.inputs ++ ofKind .input [n] := by
  rw [register]
  cases kind : n.kind <;> simp [ofKind, kind]

theorem outputs_register : (g.register n).outputs = g.outputs ++ ofKind .output [n] := by
  rw [register]
  cases kind : n.kind <;> simp [ofKind, kind]

/-- An addition notes the node where its kind asks for it. -/
theorem Registered.add (registered : g.Registered) (indexed : g.Indexed)
    (added : g.add n = .ok g') : g'.Registered := by
  have nodes_eq := indexed.nodes_add added
  rw [indexed.add_eq (indexed.fresh_of_add added), Except.ok.injEq] at added
  constructor
  · rw [nodes_eq, ofKind_map _ (fun _ => name_feed) (fun _ => kind_feed), ofKind_append,
      ← registered.inputs_eq, ← added, inputs_register]
    rfl
  · rw [nodes_eq, ofKind_map _ (fun _ => name_feed) (fun _ => kind_feed), ofKind_append,
      ← registered.outputs_eq, ← added, outputs_register]
    rfl

theorem Registered.remove (registered : g.Registered) (indexed : g.Indexed)
    (member : n ∈ g.nodes) : (g.remove n.name).Registered := by
  obtain ⟨slot, at_slot, removed⟩ := indexed.remove_eq member
  have nodes_eq := indexed.nodes_remove member
  constructor
  · rw [nodes_eq, ofKind_map _ (fun _ => name_detach) (fun _ => kind_detach), ofKind_filter,
      ← registered.inputs_eq, removed, packIfSparse]
    split <;> rfl
  · rw [nodes_eq, ofKind_map _ (fun _ => name_detach) (fun _ => kind_detach), ofKind_filter,
      ← registered.outputs_eq, removed, packIfSparse]
    split <;> rfl

/-! ### Runs -/

theorem tidy_empty (name : Value) : (empty name).Tidy where
  indexed := fun _ _ => by simp [empty]
  linked := trivial
  registered := ⟨rfl, rfl⟩

theorem Tidy.add (tidy : g.Tidy) (fresh : n.outputs = []) (added : g.add n = .ok g') :
    g'.Tidy where
  indexed := tidy.indexed.add added
  linked := by
    rw [tidy.indexed.nodes_add added]
    exact tidy.linked.append_feed fresh
  registered := tidy.registered.add tidy.indexed added

theorem Tidy.remove (tidy : g.Tidy) (name : String) : (g.remove name).Tidy := by
  by_cases present : name ∈ g.names
  · obtain ⟨n, member, rfl⟩ := mem_names.1 present
    refine ⟨tidy.indexed.remove n.name, ?_, tidy.registered.remove tidy.indexed member⟩
    rw [tidy.indexed.nodes_remove member]
    exact tidy.linked.filter_detach fun m also same => tidy.indexed.eq_of_name also member same
  · rwa [tidy.indexed.remove_of_not_mem present]

/-- Every run of additions and removals keeps a graph tidy. -/
theorem Edited.tidy (edited : g.Edited) : g.Tidy := by
  induction edited with
  | empty name => exact tidy_empty name
  | add _ fresh added ih => exact ih.add fresh added
  | remove _ name ih => exact ih.remove name
  | setMeta _ _ _ ih =>
      exact ⟨ih.indexed, ih.linked, ih.registered.inputs_eq, ih.registered.outputs_eq⟩

end TensorGraph.Graph
