import TensorGraph.Graph.Combine
import TensorGraph.Proofs.Graph.Relisted
import TensorGraph.Proofs.Graph.Typing
import TensorGraph.Proofs.Graph.Walking

/-!
Types in a restricted graph. A restriction keeps the nodes of a selection and the edges between
them. Where the selection has everything that its nodes depend on, no node loses an input that
exists, so it says the same about its type as before. The nodes that a node depends on, with the
node itself, are such a selection.
-/

namespace TensorGraph.Graph

open Relation

variable {g : Graph} {n : Node} {name : String} {names selected : List String}
  {setting : Option String} {types : String → Option Reference} {known : OrderedMap Reference}
  {t : Reference}

/-- The nodes that are selected by their names, in the order in which they are first named. -/
def selection (g : Graph) (names : List String) : List String := (distinct names).filter g.has

/-- A node without its edges to nodes outside a selection. -/
def confine (selected : List String) (n : Node) : Node :=
  { n with inputs := n.inputs.filter selected.contains,
           outputs := n.outputs.filter selected.contains }

@[simp] theorem kind_confine : (confine selected n).kind = n.kind := rfl

/-- A graph of these nodes. They are put in one after the other and noted, without regard to their
neighbours. -/
def gathered (title : Value) (ns : List Node) : Graph :=
  ns.foldl (fun part n => (part.insert n).register n) (.empty title)

/-- With each node, the names have all nodes that it takes an input from. -/
def ClosedUnderInputs (g : Graph) (names : List String) : Prop :=
  ∀ before behind, g.Precedes before behind → behind ∈ names → before ∈ names

/-- Nodes of different names that have edges among each other only. -/
structure SelfContained (ns : List Node) : Prop where
  nodup : (ns.map Node.name).Nodup
  inputs : ∀ n ∈ ns, n.inputs ⊆ ns.map Node.name
  outputs : ∀ n ∈ ns, n.outputs ⊆ ns.map Node.name

/-! ### Nodes of a restriction -/

theorem mem_selection : name ∈ g.selection names ↔ name ∈ names ∧ g.has name = true := by
  rw [selection, List.mem_filter, mem_distinct]

theorem foldl_select_eq {part : Graph} : names.foldl (g.select selected) part =
    ((g.existing names).map (confine selected)).foldl
      (fun part n => (part.insert n).register n) part := by
  induction names generalizing part with
  | nil => rfl
  | cons name rest ih =>
      rw [List.foldl_cons, ih, existing]
      cases found : g.node? name with
      | none => simp [select, found, existing]
      | some n => simp [select, found, existing, confine]

/-- A restriction is made of the nodes that are selected and of nothing else that the graph has. -/
theorem subgraph_eq_gathered : g.subgraph names =
    gathered (.text (g.name.plain ++ "_subgraph"))
      ((g.existing (g.selection names)).map (confine (g.selection names))) :=
  foldl_select_eq

theorem nodes_gathered (title : Value) (ns : List Node) : (gathered title ns).nodes = ns := by
  have behind (part : Graph) :
      (ns.foldl (fun part n => (part.insert n).register n) part).nodes = part.nodes ++ ns := by
    induction ns generalizing part with
    | nil => simp
    | cons n ns ih => simp [ih]
  exact behind (.empty title)

theorem nodes_subgraph : (g.subgraph names).nodes =
    (g.existing (g.selection names)).map (confine (g.selection names)) := by
  rw [subgraph_eq_gathered, nodes_gathered]

theorem Indexed.names_subgraph (indexed : g.Indexed) :
    (g.subgraph names).names = g.selection names := by
  have inside : g.selection names ⊆ g.names := fun _ listed =>
    indexed.has_iff.1 (mem_selection.1 listed).2
  conv_rhs => rw [← indexed.map_name_existing inside]
  rw [Graph.names, nodes_subgraph, List.map_map]
  rfl

theorem Indexed.has_subgraph_iff (indexed : g.Indexed) :
    (g.subgraph names).has name = true ↔ name ∈ names ∧ g.has name = true := by
  rw [(indexed.subgraph names).has_iff, indexed.names_subgraph, mem_selection]

/-- What a name designates in a restriction. -/
theorem Indexed.node?_subgraph_eq_some_iff (indexed : g.Indexed) :
    (g.subgraph names).node? name = some n ↔
      name ∈ names ∧ ∃ m, g.node? name = some m ∧ confine (g.selection names) m = n := by
  rw [(indexed.subgraph names).node?_eq_some_iff, nodes_subgraph]
  constructor
  · intro there
    rcases there with ⟨restricted, rfl⟩
    obtain ⟨m, present, rfl⟩ := List.mem_map.1 restricted
    rcases indexed.mem_existing_iff.1 present with ⟨member, chosen⟩
    exact ⟨(mem_selection.1 chosen).1, m, indexed.node?_of_mem member, rfl⟩
  · intro there
    rcases there with ⟨listed, m, found, rfl⟩
    rcases indexed.node?_eq_some_iff.1 found with ⟨member, rfl⟩
    have chosen : m.name ∈ g.selection names :=
      mem_selection.2 ⟨listed, indexed.has_of_mem member⟩
    exact ⟨List.mem_map_of_mem (indexed.mem_existing_iff.2 ⟨member, chosen⟩), rfl⟩

/-- A restriction has no edges of its own. -/
theorem Indexed.precedes_of_subgraph (indexed : g.Indexed) {before behind : String}
    (precedes : (g.subgraph names).Precedes before behind) : g.Precedes before behind := by
  obtain ⟨has, n, found, takes⟩ := precedes
  obtain ⟨_, m, found', rfl⟩ := indexed.node?_subgraph_eq_some_iff.1 found
  exact ⟨(indexed.has_subgraph_iff.1 has).2, m, found', (List.mem_filter.1 takes).1⟩

theorem Acyclic.subgraph (acyclic : g.Acyclic) (indexed : g.Indexed) :
    (g.subgraph names).Acyclic :=
  fun name cycle => acyclic name (cycle.lift id fun _ _ => indexed.precedes_of_subgraph)

/-- Nodes that have edges among each other only are what a restriction to their names consists
of. -/
theorem Indexed.nodes_subgraph_of_selfContained (indexed : g.Indexed) {ns : List Node}
    (inside : ns ⊆ g.nodes) (selfContained : SelfContained ns) :
    (g.subgraph (ns.map Node.name)).nodes = ns := by
  have all : g.selection (ns.map Node.name) = ns.map Node.name := by
    rw [selection, distinct_of_nodup selfContained.nodup, List.filter_eq_self]
    intro name listed
    obtain ⟨n, among, rfl⟩ := List.mem_map.1 listed
    exact indexed.has_of_mem (inside among)
  have whole : ∀ n ∈ ns, confine (ns.map Node.name) n = n := by
    intro n listed
    have inputs_eq : n.inputs.filter (ns.map Node.name).contains = n.inputs :=
      List.filter_eq_self.2 fun p takes =>
        List.contains_iff_mem.2 (selfContained.inputs n listed takes)
    have outputs_eq : n.outputs.filter (ns.map Node.name).contains = n.outputs :=
      List.filter_eq_self.2 fun s feeds =>
        List.contains_iff_mem.2 (selfContained.outputs n listed feeds)
    rw [confine, inputs_eq, outputs_eq]
  rw [nodes_subgraph, all, indexed.existing_map_name inside, List.map_congr_left whole,
    List.map_id']

/-! ### Types -/

/-- Types of the names in a list, and of no others. -/
def restrictTypes (names : List String) (types : String → Option Reference) (name : String) :
    Option Reference :=
  if name ∈ names then types name else none

/-- A node that keeps the inputs that exist says the same about its type. An operation cannot have
lost any other input, because it has no result where one is missing. -/
theorem localType_subgraph (indexed : g.Indexed) (closed : g.ClosedUnderInputs names)
    (solves : Solves setting g types) (found : g.node? name = some n) (listed : name ∈ names)
    (stated : LocalType setting g types n t) :
    LocalType setting (g.subgraph names) (restrictTypes names types)
      (confine (g.selection names) n) t := by
  have kept {p : String} (takes : p ∈ n.inputs) (has : g.has p = true) : p ∈ names :=
    closed p name ⟨has, n, found, takes⟩ listed
  rw [LocalType] at stated ⊢
  rw [kind_confine]
  generalize n.kind = kind at stated ⊢
  cases kind with
  | input => exact stated
  | const => exact stated
  | output =>
      obtain ⟨p, first, typed⟩ := stated
      have has : g.has p = true := List.find?_some first
      have inside : p ∈ names := kept (List.mem_of_find?_eq_some first) has
      refine ⟨p, ?_, by rw [restrictTypes, if_pos inside, typed]⟩
      rw [confine, List.find?_filter, ← first]
      apply List.find?_congr
      intro q takes
      rw [Bool.eq_iff_iff]
      simp only [List.contains_iff_mem, mem_selection, indexed.has_subgraph_iff, and_self,
        decide_eq_true_eq]
      exact and_iff_right_of_imp (kept takes)
  | op =>
      obtain ⟨op, operation, result⟩ := stated
      have present {p : String} (takes : p ∈ n.inputs) : g.has p = true := by
        rw [← solves.domain]
        exact Operation.isSome_of_result result _ (List.mem_map_of_mem takes)
      have inputs_eq : (confine (g.selection names) n).inputs = n.inputs := by
        apply List.filter_eq_self.2
        intro p takes
        rw [List.contains_iff_mem, mem_selection]
        exact ⟨kept takes (present takes), present takes⟩
      have types_eq : n.inputs.map (restrictTypes names types) = n.inputs.map types := by
        apply List.map_congr_left
        intro p takes
        exact if_pos (kept takes (present takes))
      refine ⟨op, operation, ?_⟩
      rw [inputs_eq, types_eq]
      exact result

/-- Types that all nodes agree with are, on such a selection, types that all nodes of the
restriction agree with. -/
theorem Solves.subgraph (solves : Solves setting g types) (indexed : g.Indexed)
    (closed : g.ClosedUnderInputs names) :
    Solves setting (g.subgraph names) (restrictTypes names types) where
  domain := by
    intro name
    rw [Bool.eq_iff_iff, indexed.has_subgraph_iff, restrictTypes, ← solves.domain]
    split
    · next listed => simp [listed]
    · next unlisted => simp [unlisted]
  rule := by
    intro name m found
    obtain ⟨listed, n, found', rfl⟩ := indexed.node?_subgraph_eq_some_iff.1 found
    obtain ⟨t, typed, stated⟩ := solves.rule name n found'
    refine ⟨t, ?_, localType_subgraph indexed closed solves found' listed stated⟩
    rw [restrictTypes, if_pos listed, typed]

/-- Inference for a restriction to such a selection finds the types that it finds for the whole
graph. -/
theorem Indexed.exists_forwardTypes_subgraph (indexed : g.Indexed)
    (closed : g.ClosedUnderInputs names) (inferred : g.forwardTypes setting = .ok known) :
    ∃ part, (g.subgraph names).forwardTypes setting = .ok part ∧
      part.get? = restrictTypes names known.get? := by
  rcases indexed.exists_forwardTypes_iff.1 ⟨known, inferred, rfl⟩ with ⟨acyclic, solves⟩
  apply (indexed.subgraph names).exists_forwardTypes_iff.2
  exact ⟨acyclic.subgraph indexed, solves.subgraph indexed closed⟩

/-- All that a node depends on, directly or through others, is such a selection. -/
theorem Indexed.closedUnderInputs_predecessors (indexed : g.Indexed) (name : String) :
    g.ClosedUnderInputs (g.predecessors name ++ [name]) := by
  intro before behind precedes listed
  rw [indexed.mem_predecessors_append_iff] at listed ⊢
  exact .head precedes listed

/-- **Types of what a node depends on.** Where inference succeeds on a graph, whatever its history
is, it succeeds on the part of the graph that consists of one node and of all that this node depends
on, and finds there the types that it finds for the whole graph, and no others. -/
theorem forwardTypes_dependencies (reached : g.Reached) (present : g.has name = true)
    (inferred : g.forwardTypes setting = .ok known) :
    ∃ part, (g.subgraph (g.predecessors name ++ [name])).forwardTypes setting = .ok part ∧
      (∀ other, part.get? other =
        if other ∈ g.predecessors name ++ [name] then known.get? other else none) ∧
      ∀ other, (g.subgraph (g.predecessors name ++ [name])).has other = true ↔
        ReflTransGen g.Precedes other name := by
  have indexed := reached.indexed
  obtain ⟨part, inferred_part, types_eq⟩ := indexed.exists_forwardTypes_subgraph
    (indexed.closedUnderInputs_predecessors name) inferred
  refine ⟨part, inferred_part, fun other => congrFun types_eq other, fun other => ?_⟩
  rw [indexed.has_subgraph_iff, indexed.mem_predecessors_append_iff]
  apply and_iff_left_of_imp
  intro depends
  rcases ReflTransGen.cases_head depends with rfl | ⟨_, precedes, _⟩
  · exact present
  · exact precedes.1

/-- An output that names a missing input first, a product of a sum with itself, a node that takes
the sum as well, and the sum of an input with the result of a node on it; all stand before what they
depend on. -/
def branching : List Node :=
  [{ name := "y", kind := .output, inputs := ["z", "q"] },
    { name := "q", kind := .op, operation := some { kind := .mul }, inputs := ["s", "s"] },
    { name := "t", kind := .op, operation := some { kind := .relu }, inputs := ["s"] },
    { name := "s", kind := .op, operation := some { kind := .add }, inputs := ["x", "r"] },
    { name := "r", kind := .op, operation := some { kind := .relu }, inputs := ["x"] },
    { name := "x", kind := .input, tensor := some (.empty ⟨[2, 3]⟩ .float32) }]

theorem forwardTypes_branching : ∃ g known part,
    branching.foldlM add (empty (.text "g")) = .ok g ∧ g.Reached ∧ g.has "y" = true ∧
    g.forwardTypes none = .ok known ∧ (known.get? "t").isSome = true ∧
    g.predecessors "y" = ["q", "s", "x", "r"] ∧
    (g.subgraph ["q", "s", "x", "r", "y"]).forwardTypes none = .ok part ∧
    part.get? "y" = known.get? "y" ∧ part.get? "t" = none := by
  obtain ⟨g, made⟩ : ∃ g, branching.foldlM add (empty (.text "g")) = .ok g := ⟨_, rfl⟩
  have reached : g.Reached := (Reached.empty _).foldlM_add made
  obtain ⟨known, inferred, present, elsewhere, walked⟩ :
      ∃ known, g.forwardTypes none = .ok known ∧ g.has "y" = true ∧
        (known.get? "t").isSome = true ∧ g.predecessors "y" = ["q", "s", "x", "r"] := by
    cases made
    exact ⟨_, rfl, rfl, rfl, rfl⟩
  obtain ⟨part, inferred_part, types_eq, _⟩ := forwardTypes_dependencies reached present inferred
  rw [walked] at inferred_part types_eq
  exact ⟨g, known, part, made, reached, present, inferred, elsewhere, walked, inferred_part,
    types_eq "y", types_eq "t"⟩

end TensorGraph.Graph
