import TensorGraph.Proofs.Graph.History

/-!
Edges after additions and removals. A node is told of its successors when they are added, and only
of those: one that was added before it, and named it as an input in advance, does not count among
its successors. So a removal finds the nodes behind, and takes the name out of their inputs; the
inputs of a node that was there before are left to themselves.
-/

namespace TensorGraph.Graph

variable {g : Graph} {n m : Node} {name : String} {order : List String}
  {ns before behind : List Node}

/-- A graph that additions of fresh nodes and removals lead to, and the names of its nodes in the
order in which they were added. Additions that fail leave the graph as it was. -/
inductive EditHistory : Graph → List String → Prop where
  | empty (name : Value) : EditHistory (.empty name) []
  | add {g g' : Graph} {order : List String} {n : Node} (earlier : EditHistory g order)
      (fresh : n.outputs = []) (added : g.add n = .ok g') : EditHistory g' (order ++ [n.name])
  | remove {g : Graph} {order : List String} (earlier : EditHistory g order) (name : String) :
      EditHistory (g.remove name) (without name order)

theorem EditHistory.tidy (edits : g.EditHistory order) : g.Tidy := by
  induction edits with
  | empty name => exact tidy_empty name
  | add _ fresh added ih => exact ih.add fresh added
  | remove _ name ih => exact ih.remove name

theorem EditHistory.history (edits : g.EditHistory order) : g.History order := by
  induction edits with
  | empty name => exact .empty name
  | add _ _ added ih => exact ih.add added
  | remove _ name ih => exact ih.remove name

theorem EditHistory.names_eq (edits : g.EditHistory order) : g.names = order :=
  edits.history.consistent.names_eq

/-! ### Successors -/

/-- Whether there is a node of the second name that takes an input from the first. -/
def takes (g : Graph) (name taker : String) : Bool :=
  (g.node? taker).any fun n => name ∈ n.inputs

theorem Indexed.takers_eq_filter (indexed : g.Indexed) (nodes : ∀ n ∈ ns, n ∈ g.nodes) :
    takers name ns = (ns.map Node.name).filter (g.takes name) := by
  rw [takers, List.filter_map]
  congr 1
  apply List.filter_congr
  intro n member
  simp [takes, indexed.node?_of_mem (nodes n member)]

/-- **Successors.** In every graph that additions and removals lead to, whatever inputs the nodes
name, the successors of a node are just those nodes from it on, in the order in which they were
added, that take an input from it; each is listed once. -/
theorem successors_eq_takers_from (edits : g.EditHistory order)
    (found : g.node? name = some n) :
    order.Nodup ∧ (∀ other, other ∈ order ↔ g.has other = true) ∧
      ∃ before behind, order = before ++ name :: behind ∧
        n.outputs = (name :: behind).filter (g.takes name) ∧ n.outputs.Nodup := by
  have tidy := edits.tidy
  have indexed := tidy.indexed
  have nodup := indexed.nodup_names
  have linked := tidy.linked
  rcases indexed.node?_eq_some_iff.1 found with ⟨member, rfl⟩
  obtain ⟨before, behind, split⟩ := List.append_of_mem member
  have names_eq : order = before.map Node.name ++ n.name :: behind.map Node.name := by
    rw [← edits.names_eq, names, split, List.map_append, List.map_cons]
  have outputs_eq : n.outputs = (n.name :: behind.map Node.name).filter (g.takes n.name) := by
    rw [split] at linked
    rw [linked.outputs_eq_of_append, indexed.takers_eq_filter, List.map_cons]
    intro m later
    rw [split]
    exact List.mem_append_right _ later
  rw [edits.names_eq] at nodup
  refine ⟨nodup, fun other => ?_, _, _, names_eq, outputs_eq, ?_⟩
  · rw [indexed.has_iff, edits.names_eq]
  · rw [names_eq, List.nodup_append] at nodup
    rw [outputs_eq]
    exact nodup.2.1.sublist List.filter_sublist

/-- A node that names a missing input, the input, which takes one from itself, and a node between
that goes and comes back last. -/
def retied : Except Error Graph := do
  let g ← (empty (.text "g")).add { name := "b", kind := .op, inputs := ["a", "z"] }
  let g ← g.add { name := "a", kind := .op, inputs := ["a"] }
  let g ← g.add { name := "c", kind := .output, inputs := ["a", "b", "a"] }
  (g.remove "b").add { name := "b", kind := .op, inputs := ["c", "a"] }

theorem exists_retied : ∃ g, retied = .ok g ∧ g.EditHistory ["a", "c", "b"] := by
  obtain ⟨g, made⟩ : ∃ g, retied = .ok g := ⟨_, rfl⟩
  obtain ⟨first, one, made'⟩ := bind_eq_ok_iff.1 made
  obtain ⟨second, two, made'⟩ := bind_eq_ok_iff.1 made'
  obtain ⟨third, three, four⟩ := bind_eq_ok_iff.1 made'
  have order : without "b" ([] ++ ["b"] ++ ["a"] ++ ["c"]) ++ ["b"] = ["a", "c", "b"] := by decide
  refine ⟨g, made, ?_⟩
  rw [← order]
  exact .add (.remove (.add (.add (.add (.empty _) rfl one) rfl two) rfl three) "b") rfl four

theorem successors_retied : ∃ g n, retied = .ok g ∧ g.EditHistory ["a", "c", "b"] ∧
    g.node? "a" = some n ∧ n.outputs = ["a", "c", "b"] ∧ n.outputs.Nodup ∧
    ∃ before behind, ["a", "c", "b"] = before ++ "a" :: behind ∧
      n.outputs = ("a" :: behind).filter (g.takes "a") := by
  obtain ⟨g, made, edits⟩ := exists_retied
  obtain ⟨n, found, outputs⟩ : ∃ n, g.node? "a" = some n ∧ n.outputs = ["a", "c", "b"] := by
    cases made
    exact ⟨_, rfl, rfl⟩
  obtain ⟨_, _, before, behind, split, outputs_eq, nodup⟩ :=
    successors_eq_takers_from edits found
  exact ⟨g, n, made, edits, found, outputs, nodup, before, behind, split, outputs_eq⟩

/-! ### Removals -/

/-- What is left of another node once the node of a name is gone: its successors without that name,
its inputs with the name or without it, and all else as it was. -/
structure Stripped (name : String) (m m' : Node) : Prop where
  rest_eq : m' = { m with inputs := m'.inputs, outputs := m'.outputs }
  outputs_eq : m'.outputs = without name m.outputs
  inputs_eq : m'.inputs = m.inputs ∨ m'.inputs = without name m.inputs

/-- A node that is not told of a removal did not count the node among its successors. -/
theorem Tidy.stripped_detach (tidy : g.Tidy) (member : n ∈ g.nodes) (also : m ∈ g.nodes) :
    Stripped n.name m (detach n m) where
  rest_eq := rfl
  outputs_eq := by
    by_cases taken : m.name ∈ n.inputs
    · simp [detach, taken]
    · have unlisted : n.name ∉ m.outputs := by
        intro listed
        apply taken
        apply tidy.linked.mem_inputs_of_mem_outputs also listed
        exact fun k k_mem same => tidy.indexed.eq_of_name k_mem member same
      simp [detach, taken, without_of_not_mem unlisted]
  inputs_eq := by
    by_cases told : m.name ∈ n.outputs <;> simp [detach, told]

/-- The nodes behind are told, if they take an input from the node that is gone. -/
theorem Linked.not_mem_inputs_detach (linked : Linked (before ++ n :: behind))
    (later : m ∈ behind) : n.name ∉ (detach n m).inputs := by
  by_cases told : m.name ∈ n.outputs
  · simp [detach, told]
  · have unused : n.name ∉ m.inputs := by
      intro takes
      rw [linked.outputs_eq_of_append, mem_takers] at told
      exact told ⟨m, List.mem_cons_of_mem _ later, takes, rfl⟩
    simp [detach, told, unused]

/-- Every other node is left, and the nodes behind no longer have the name among their inputs. -/
theorem Tidy.exists_stripped (tidy : g.Tidy) (split : g.nodes = before ++ n :: behind)
    (also : m ∈ g.nodes) (other : m.name ≠ n.name) :
    ∃ m' ∈ (g.remove n.name).nodes, Stripped n.name m m' ∧ (m ∈ behind → n.name ∉ m'.inputs) := by
  have linked := tidy.linked
  rw [split] at linked
  have member : n ∈ g.nodes := by
    rw [split]
    exact List.mem_append_right _ List.mem_cons_self
  refine ⟨detach n m, ?_, tidy.stripped_detach member also, linked.not_mem_inputs_detach⟩
  rw [tidy.indexed.nodes_remove member]
  apply List.mem_map_of_mem
  exact List.mem_filter.2 ⟨also, by simpa using other⟩

/-- The graph forgets a name with its node, and keeps its own name and metadata. -/
theorem Tidy.remove_eq (tidy : g.Tidy) (name : String) : g.remove name =
    { g with
      slots := (g.remove name).slots
      index := (g.remove name).index
      vacant := (g.remove name).vacant
      inputs := without name g.inputs
      outputs := without name g.outputs } := by
  by_cases present : name ∈ g.names
  · obtain ⟨n, member, rfl⟩ := mem_names.1 present
    obtain ⟨slot, _, removed⟩ := tidy.indexed.remove_eq member
    rw [removed, packIfSparse_eq]
    rfl
  · have unlisted (kind : NodeKind) : name ∉ ofKind kind g.nodes := fun listed =>
      present ((List.filter_sublist.map _).subset listed)
    rw [tidy.indexed.remove_of_not_mem present, tidy.registered.inputs_eq,
      tidy.registered.outputs_eq, without_of_not_mem (unlisted _), without_of_not_mem (unlisted _),
      ← tidy.registered.inputs_eq, ← tidy.registered.outputs_eq]

/-- **Removal.** In every graph that additions and removals lead to, a removal takes the name out of
the order and out of the inputs and outputs of the graph; of all other nodes it changes at most
inputs and successors, where it strikes off that name and nothing else. No successor list has the
name afterwards, and no node that was added behind has it among its inputs. A name that is missing
changes nothing. -/
theorem remove_strips (edits : g.EditHistory order) (name : String) :
    (name ∉ order → g.remove name = g) ∧ (g.remove name).names = without name order ∧
      (g.remove name).inputs = without name g.inputs ∧
      (g.remove name).outputs = without name g.outputs ∧
      (g.remove name).name = g.name ∧ (g.remove name).metadata = g.metadata ∧
      (∀ m' ∈ (g.remove name).nodes, name ∉ m'.outputs) ∧
      ∀ before behind, order = before ++ name :: behind → ∀ m ∈ g.nodes, m.name ≠ name →
        ∃ m' ∈ (g.remove name).nodes,
          Stripped name m m' ∧ (m.name ∈ behind → name ∉ m'.inputs) := by
  have tidy := edits.tidy
  have indexed := tidy.indexed
  have names_eq : (g.remove name).names = without name order := by
    rw [indexed.names_remove, edits.names_eq]
  refine ⟨fun absent => ?_, names_eq, ?_, ?_, ?_, ?_, ?_, ?_⟩
  · rw [← edits.names_eq] at absent
    exact indexed.remove_of_not_mem absent
  · rw [tidy.remove_eq]
  · rw [tidy.remove_eq]
  · rw [tidy.remove_eq]
  · rw [tidy.remove_eq]
  · intro m' member listed
    have present := (tidy.remove name).linked.mem_of_mem_outputs member listed
    rw [← names, names_eq, mem_without] at present
    exact present.2 rfl
  · intro before behind split m also other
    rw [← edits.names_eq] at split
    obtain ⟨earlier, rest, nodes_eq, _, rest_names⟩ := List.map_eq_append_iff.1 split
    obtain ⟨n, later, rfl, rfl, rfl⟩ := List.map_eq_cons_iff.1 rest_names
    obtain ⟨m', left, stripped, gone⟩ := tidy.exists_stripped nodes_eq also other
    refine ⟨m', left, stripped, fun listed => ?_⟩
    obtain ⟨k, k_mem, same⟩ := List.mem_map.1 listed
    have k_also : k ∈ g.nodes := by
      rw [nodes_eq]
      exact List.mem_append_right _ (List.mem_cons_of_mem _ k_mem)
    rw [indexed.eq_of_name k_also also same] at k_mem
    exact gone k_mem

theorem remove_strips_retied : ∃ g m m', retied = .ok g ∧ g.EditHistory ["a", "c", "b"] ∧
    m ∈ g.nodes ∧ m.name = "b" ∧ m.inputs = ["c", "a"] ∧ (g.remove "c").names = ["a", "b"] ∧
    (g.remove "c").outputs = [] ∧ m' ∈ (g.remove "c").nodes ∧ Stripped "c" m m' ∧
    "c" ∉ m'.inputs := by
  obtain ⟨g, made, edits⟩ := exists_retied
  obtain ⟨m, found, inputs, outputs⟩ : ∃ m, g.node? "b" = some m ∧ m.inputs = ["c", "a"] ∧
      g.outputs = ["c"] := by
    cases made
    exact ⟨_, rfl, rfl, rfl⟩
  obtain ⟨member, named⟩ := edits.tidy.indexed.node?_eq_some_iff.1 found
  obtain ⟨_, names_eq, _, outputs_eq, _, _, _, others⟩ := remove_strips edits "c"
  obtain ⟨m', left, stripped, gone⟩ := others ["a"] ["b"] rfl m member (by simp [named])
  refine ⟨g, m, m', made, edits, member, named, inputs, names_eq.trans (by decide), ?_, left,
    stripped, gone (by simp [named])⟩
  rw [outputs_eq, outputs]
  decide

/-- A node that names a missing input. -/
def expectant : Except Error Graph :=
  (empty (.text "g")).add { name := "b", kind := .op, inputs := ["a"] }

/-- The missing input comes behind the node that names it. -/
def fulfilled : Except Error Graph := do
  (← expectant).add { name := "a", kind := .input }

/-- A name that is mentioned in advance is not struck off: not while it is missing, when its removal
does nothing, and not when its node has come and goes again. -/
theorem mention_outlasts_removal :
    (∃ g n, expectant = .ok g ∧ g.EditHistory ["b"] ∧ (g.remove "a").node? "b" = some n ∧
      "a" ∈ n.inputs) ∧
    ∃ g n, fulfilled = .ok g ∧ g.EditHistory ["b", "a"] ∧ (g.remove "a").node? "b" = some n ∧
      "a" ∈ n.inputs := by
  constructor
  · obtain ⟨g, made⟩ : ∃ g, expectant = .ok g := ⟨_, rfl⟩
    obtain ⟨n, found, mentions⟩ : ∃ n, (g.remove "a").node? "b" = some n ∧ "a" ∈ n.inputs := by
      cases made
      exact ⟨_, rfl, by simp⟩
    exact ⟨g, n, made, .add (.empty _) rfl made, found, mentions⟩
  · obtain ⟨g, made⟩ : ∃ g, fulfilled = .ok g := ⟨_, rfl⟩
    obtain ⟨first, one, two⟩ := bind_eq_ok_iff.1 made
    obtain ⟨n, found, mentions⟩ : ∃ n, (g.remove "a").node? "b" = some n ∧ "a" ∈ n.inputs := by
      cases made
      exact ⟨_, rfl, by decide⟩
    exact ⟨g, n, made, .add (.add (.empty _) rfl one) rfl two, found, mentions⟩

end TensorGraph.Graph
