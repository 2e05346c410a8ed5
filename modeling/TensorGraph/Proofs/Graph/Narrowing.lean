import TensorGraph.Proofs.Graph.History
import TensorGraph.Proofs.Graph.Restriction

/-!
Restrictions of restrictions. A restriction is made of its title and of the nodes that are selected,
and a node that is confined twice is confined to what is selected both times. So to restrict a graph
first to some names and then to others is to restrict it once, to those of the second names that are
among the first.
-/

namespace TensorGraph.Graph

variable {g : Graph} {n : Node} {name : String} {names selected first second : List String}
  {ns : List Node} {title : Value}

/-! ### Titles -/

/-- Of a graph that is gathered, only its name depends on the title. -/
theorem gathered_eq_withName (other : Value) :
    gathered title ns = { gathered other ns with name := title } := by
  have retitled (part : Graph) :
      ns.foldl (fun part n => (part.insert n).register n) { part with name := title } =
        { ns.foldl (fun part n => (part.insert n).register n) part with name := title } := by
    induction ns generalizing part with
    | nil => rfl
    | cons n ns ih =>
        have step : (({ part with name := title } : Graph).insert n).register n =
            { (part.insert n).register n with name := title } := by
          rw [register, register]
          cases n.kind <;> rfl
        rw [List.foldl_cons, List.foldl_cons, step, ih]
  exact retitled (.empty other)

theorem name_subgraph : (g.subgraph names).name = .text (g.name.plain ++ "_subgraph") := by
  rw [subgraph_eq_gathered, gathered_eq_withName .null]

/-! ### One selection after the other -/

theorem Indexed.selection_subgraph (indexed : g.Indexed) :
    (g.subgraph first).selection second = g.selection (second.filter (· ∈ first)) := by
  rw [selection, selection, distinct_filter, List.filter_filter]
  apply List.filter_congr
  intro name _
  rw [Bool.eq_iff_iff, indexed.has_subgraph_iff]
  simp [and_comm]

/-- Names that are selected designate the same nodes as before, confined. -/
theorem Indexed.existing_subgraph (indexed : g.Indexed) (inside : selected ⊆ first) :
    (g.subgraph first).existing selected =
      (g.existing selected).map (confine (g.selection first)) := by
  rw [existing, existing, List.map_filterMap]
  apply List.filterMap_congr
  intro name listed
  apply Option.ext
  intro n
  rw [indexed.node?_subgraph_eq_some_iff, Option.map_eq_some_iff]
  exact and_iff_right (inside listed)

theorem confine_confine (inside : second ⊆ first) :
    confine second (confine first n) = confine second n := by
  have twice (names : List String) :
      (names.filter first.contains).filter second.contains = names.filter second.contains := by
    rw [List.filter_filter]
    apply List.filter_congr
    intro name _
    rw [Bool.eq_iff_iff, Bool.and_eq_true, List.contains_iff_mem, List.contains_iff_mem]
    exact and_iff_left_of_imp fun listed => inside listed
  rw [confine, confine, confine, twice, twice]

/-- The nodes that are left by two selections are those that one selection leaves. -/
theorem Indexed.subgraph_subgraph_eq (indexed : g.Indexed) :
    (g.subgraph first).subgraph second =
      { g.subgraph (second.filter (· ∈ first)) with
        name := .text (g.name.plain ++ "_subgraph_subgraph") } := by
  let both := g.selection (second.filter (· ∈ first))
  have inside {name : String} (listed : name ∈ both) : name ∈ first ∧ g.has name = true := by
    rw [mem_selection, List.mem_filter, decide_eq_true_eq] at listed
    exact ⟨listed.1.2, listed.2⟩
  have nodes_eq : ((g.subgraph first).existing both).map (confine both) =
      (g.existing both).map (confine both) := by
    rw [indexed.existing_subgraph fun _ listed => (inside listed).1, List.map_map]
    apply List.map_congr_left
    intro n _
    exact confine_confine fun _ listed => mem_selection.2 (inside listed)
  have title : (g.subgraph first).name.plain ++ "_subgraph" =
      g.name.plain ++ "_subgraph_subgraph" := by
    rw [name_subgraph, Value.plain, String.append_assoc]
    rfl
  rw [subgraph_eq_gathered, indexed.selection_subgraph, nodes_eq, title, gathered_eq_withName,
    ← subgraph_eq_gathered]

/-! ### What a restriction keeps -/

theorem Indexed.selfContained_subgraph (indexed : g.Indexed) (names : List String) :
    SelfContained (g.subgraph names).nodes := by
  have names_eq : (g.subgraph names).nodes.map Node.name = g.selection names :=
    indexed.names_subgraph
  refine ⟨(indexed.subgraph names).nodup_names, fun n restricted => ?_, fun n restricted => ?_⟩
  all_goals
    rw [names_eq]
    rw [nodes_subgraph] at restricted
    obtain ⟨m, _, rfl⟩ := List.mem_map.1 restricted
    intro name kept
    exact List.contains_iff_mem.1 (List.mem_filter.1 kept).2

/-- A node that is selected keeps all its edges to nodes that are selected. -/
theorem Indexed.node?_subgraph_of_mem (indexed : g.Indexed) (member : n ∈ g.nodes)
    (listed : n.name ∈ names) :
    (g.subgraph names).node? n.name = some { n with
      inputs := n.inputs.filter fun p => p ∈ names ∧ g.has p = true
      outputs := n.outputs.filter fun s => s ∈ names ∧ g.has s = true } := by
  have selected (name : String) : (g.selection names).contains name =
      decide (name ∈ names ∧ g.has name = true) := by
    rw [Bool.eq_iff_iff, List.contains_iff_mem, mem_selection, decide_eq_true_eq]
  rw [indexed.node?_subgraph_eq_some_iff]
  refine ⟨listed, n, indexed.node?_of_mem member, ?_⟩
  rw [confine, funext selected]

/-- **Restrictions.** In every graph, whatever its history is, to restrict it to some names and the
result to others is to restrict it to those of the second names that are among the first; the two
graphs differ in their own name only. A restriction consists of the nodes whose names are listed, in
the order in which they are first listed, it notes its input and output nodes, and each node keeps
its edges to the nodes that are selected, in their order and as often as they are there, and no
others. No edge leads out of it, and it has no cycle unless the graph has one. -/
theorem subgraph_subgraph (reached : g.Reached) :
    (∀ first second, (g.subgraph first).subgraph second =
      { g.subgraph (second.filter (· ∈ first)) with
        name := .text (g.name.plain ++ "_subgraph_subgraph") }) ∧
    ∀ names,
      (g.subgraph names).names = (distinct names).filter g.has ∧
      (g.subgraph names).Registered ∧
      (∀ n ∈ g.nodes, n.name ∈ names → (g.subgraph names).node? n.name = some { n with
        inputs := n.inputs.filter fun p => p ∈ names ∧ g.has p = true
        outputs := n.outputs.filter fun s => s ∈ names ∧ g.has s = true }) ∧
      SelfContained (g.subgraph names).nodes ∧
      (g.Acyclic → (g.subgraph names).Acyclic) := by
  have indexed := reached.indexed
  refine ⟨fun first second => indexed.subgraph_subgraph_eq, fun names => ?_⟩
  refine ⟨indexed.names_subgraph, (indexed.consistent_subgraph names).registered, ?_,
    indexed.selfContained_subgraph names, fun acyclic => acyclic.subgraph indexed⟩
  exact fun n member listed => indexed.node?_subgraph_of_mem member listed

/-- An input, an operation that takes it twice and a missing name as well, one that takes both, and
an output of the two that names the second one twice. -/
def woven : List Node :=
  [{ name := "x", kind := .input },
    { name := "a", kind := .op, inputs := ["x", "z", "x"] },
    { name := "b", kind := .op, inputs := ["a", "x"] },
    { name := "y", kind := .output, inputs := ["b", "a", "b"] }]

/-- Names in another order than the nodes, some of them repeated and one missing. -/
theorem subgraph_subgraph_woven : ∃ g part y, woven.foldlM add (empty (.text "g")) = .ok g ∧
    g.Reached ∧ g.Acyclic ∧ part = g.subgraph ["y", "z", "b", "x", "y"] ∧
    part.names = ["y", "b", "x"] ∧ part.Acyclic ∧ y ∈ g.nodes ∧ y.inputs = ["b", "a", "b"] ∧
    (part.node? "y").map Node.inputs = some ["b", "b"] ∧
    part.subgraph ["x", "a", "y", "z", "x"] =
      { g.subgraph ["x", "y", "z", "x"] with name := .text "g_subgraph_subgraph" } := by
  obtain ⟨g, made⟩ : ∃ g, woven.foldlM add (empty (.text "g")) = .ok g := ⟨_, rfl⟩
  have reached : g.Reached := (Reached.empty _).foldlM_add made
  obtain ⟨y, found, named, inputs, title, selected, kept, uncyclic⟩ :
      ∃ y, g.node? "y" = some y ∧ y.name = "y" ∧ y.inputs = ["b", "a", "b"] ∧ g.name = .text "g" ∧
        (distinct ["y", "z", "b", "x", "y"]).filter g.has = ["y", "b", "x"] ∧
        (y.inputs.filter fun p => p ∈ ["y", "z", "b", "x", "y"] ∧ g.has p = true) = ["b", "b"] ∧
        g.hasCycle = false := by
    cases made
    exact ⟨_, rfl, rfl, rfl, rfl, rfl, rfl, rfl⟩
  have member : y ∈ g.nodes := (reached.indexed.node?_eq_some_iff.1 found).1
  have acyclic : g.Acyclic := by
    by_contra cyclic
    rw [reached.indexed.hasCycle_iff.2 cyclic] at uncyclic
    cases uncyclic
  obtain ⟨composed, restricted⟩ := subgraph_subgraph reached
  obtain ⟨names_eq, _, nodes_eq, _, acyclic_part⟩ := restricted ["y", "z", "b", "x", "y"]
  have left := congrArg (Option.map Node.inputs) (nodes_eq y member (by simp [named]))
  rw [named, Option.map_some, kept] at left
  have twice := composed ["y", "z", "b", "x", "y"] ["x", "a", "y", "z", "x"]
  rw [title] at twice
  exact ⟨g, _, y, made, reached, acyclic, rfl, names_eq.trans selected, acyclic_part acyclic,
    member, inputs, left, twice⟩

end TensorGraph.Graph
