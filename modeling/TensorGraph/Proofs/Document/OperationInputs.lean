import TensorGraph.Proofs.Document.Loading

/-!
The inputs of operations in a graph that is loaded. A record may stand before those of its
predecessors, and the pass over all nodes makes up for that where successors are concerned. The
inputs of operations get no such pass: an input whose node comes later stays missing, although the
node is there in the end.
-/

namespace TensorGraph.Document

open TensorGraph.Graph

variable {g g' base : Graph} {n m : Node} {record doc : Value} {records : List Value}
  {names later : List String} {name p : String}

/-- The tensors of those inputs of a node that stand before it; all other inputs are missing. -/
def tensorsBefore (g : Graph) (n : Node) : List (Option Reference) :=
  n.inputs.map fun p => if g.names.idxOf p < g.names.idxOf n.name then g.tensor? p else none

/-- Every operation has the tensors of those inputs of its node that stand before the node. -/
def TakesEarlier (g : Graph) : Prop :=
  ∀ n ∈ g.nodes, ∀ op, n.operation = some op → op.inputs = tensorsBefore g n

/-- Every operation has the tensors of the nodes that its inputs designate. An input is missing only
where there is no such node, or where the node has no tensor. -/
def Resolved (g : Graph) : Prop :=
  ∀ n ∈ g.nodes, ∀ op, n.operation = some op → op.inputs = n.inputs.map g.tensor?

/-! ### Places -/

/-- What stands before a name does not change when names are added behind. -/
theorem idxOf_append_lt_iff (member : name ∈ names) :
    (names ++ later).idxOf p < (names ++ later).idxOf name ↔ names.idxOf p < names.idxOf name := by
  rw [List.idxOf_append_of_mem member]
  by_cases listed : p ∈ names
  · rw [List.idxOf_append_of_mem listed]
  · have inside := List.idxOf_lt_length_of_mem member
    rw [List.idxOf_append_of_notMem listed, List.idxOf_eq_length listed]
    omega

/-- All names stand before one that is added behind. -/
theorem idxOf_append_self_lt_iff (fresh : name ∉ names) :
    (names ++ [name]).idxOf p < (names ++ [name]).idxOf name ↔ p ∈ names := by
  rw [List.idxOf_append_of_notMem fresh, List.idxOf_cons_self]
  by_cases listed : p ∈ names
  · simpa [List.idxOf_append_of_mem listed, listed] using List.idxOf_lt_length_of_mem listed
  · simp [List.idxOf_append_of_notMem listed, listed]

section Add

variable (indexed : g.Indexed) (added : g.add n = .ok g')

include indexed added

/-- A node that is added stands before no other one. -/
theorem tensorsBefore_add_of_mem (member : m ∈ g.nodes) :
    tensorsBefore g' m = tensorsBefore g m := by
  apply List.map_congr_left
  intro p _
  have listed : m.name ∈ g.names := mem_names.2 ⟨m, member, rfl⟩
  rw [indexed.names_add added, if_congr (idxOf_append_lt_iff listed) rfl rfl]
  split
  · next before =>
    have earlier : p ∈ g.names := by
      rw [← List.idxOf_lt_length_iff]
      exact before.trans_le List.idxOf_le_length
    exact indexed.tensor?_add added earlier
  · rfl

/-- All nodes that are there stand before it. -/
theorem tensorsBefore_add_self : tensorsBefore g' n = n.inputs.map g.tensor? := by
  apply List.map_congr_left
  intro p _
  rw [indexed.names_add added,
    if_congr (idxOf_append_self_lt_iff (indexed.fresh_of_add added)) rfl rfl]
  split
  · next listed => exact indexed.tensor?_add added listed
  · next absent => rw [indexed.tensor?_of_not_mem absent]

end Add

/-! ### Loading -/

theorem TakesEarlier.add (takes : TakesEarlier g) (indexed : g.Indexed)
    (made : nodeOf g record = .ok n) (added : g.add n = .ok g') : TakesEarlier g' := by
  rw [TakesEarlier, indexed.forall_nodes_add_iff added]
  constructor
  · intro m member op given
    rw [operation_feed] at given
    exact (takes m member op given).trans (tensorsBefore_add_of_mem indexed added member).symm
  · intro op given
    -- The record was read in `g`, so its operation has the tensors from there.
    have self : resolved g n = n := Except.ok.inj (((nodeOf_resolved made).2 g).symm.trans made)
    rw [operation_feed, ← self, resolved] at given
    obtain ⟨op', _, rfl⟩ := Option.map_eq_some_iff.1 given
    exact (tensorsBefore_add_self indexed added).symm

/-- The pass over all nodes touches no operation. -/
theorem TakesEarlier.completed (takes : TakesEarlier g) (indexed : g.Indexed) (ns : List Node) :
    TakesEarlier (g.mapNodes (completed ns)) := by
  have names_eq : (g.mapNodes (Document.completed ns)).names = g.names := by
    simp [Graph.names, Function.comp_def]
  have tensors : (g.mapNodes (Document.completed ns)).tensor? = g.tensor? :=
    indexed.tensor?_mapNodes (fun _ => name_completed) fun _ => rfl
  rw [TakesEarlier, nodes_mapNodes, List.forall_mem_map]
  intro m member op given
  rw [tensorsBefore, names_eq, tensors]
  exact takes m member op given

theorem takesEarlier_of_toGraph (opened : opened doc = .ok (base, records))
    (loaded : toGraph doc = .ok g) : TakesEarlier g := by
  obtain ⟨whole, added, linked⟩ := (toGraph_eq_ok_iff opened).1 loaded
  have both : whole.Indexed ∧ TakesEarlier whole := by
    apply foldlM_addRecord_induction (P := fun g _ => g.Indexed ∧ TakesEarlier g) _ []
      ⟨(tidy_bare base).indexed, fun _ member => nomatch member⟩ added
    intro g g' n record read before made added
    rcases before with ⟨indexed, takes⟩
    exact ⟨indexed.add added, takes.add indexed made added⟩
  rcases both with ⟨indexed, takes⟩
  rw [← linked, foldl_relink_eq_mapNodes indexed]
  exact takes.completed indexed whole.nodes

/-- An input is missing without need where its node has a tensor and does not stand before. -/
theorem tensorsBefore_eq_iff : tensorsBefore g n = n.inputs.map g.tensor? ↔
    ∀ p ∈ n.inputs, (g.tensor? p).isSome → g.names.idxOf p < g.names.idxOf n.name := by
  rw [tensorsBefore, List.map_inj_left]
  apply forall₂_congr
  intro p _
  rw [ite_eq_left_iff, eq_comm, ← Option.not_isSome_iff_eq_none]
  tauto

/-- **Inputs of operations.** The nodes of a graph that is loaded stand in the order of the records.
Each operation has the tensors of those inputs of its node that stand before the node, and no other
input. So all inputs of operations are there if and only if every input that has a tensor stands
before the nodes with operations that take it. -/
theorem resolved_iff_listed_before (opened : opened doc = .ok (base, records))
    (loaded : toGraph doc = .ok g) :
    g.names = records.filterMap recordName? ∧
    (∀ n ∈ g.nodes, ∀ op, n.operation = some op → op.inputs = n.inputs.map fun p =>
      if g.names.idxOf p < g.names.idxOf n.name then g.tensor? p else none) ∧
    (Resolved g ↔ ∀ n ∈ g.nodes, n.operation.isSome → ∀ p ∈ n.inputs, (g.tensor? p).isSome →
      g.names.idxOf p < g.names.idxOf n.name) := by
  have takes := takesEarlier_of_toGraph opened loaded
  refine ⟨(consistent_of_toGraph opened loaded).names_eq, takes, ?_⟩
  apply forall₂_congr
  intro n member
  constructor
  · intro all present
    obtain ⟨op, given⟩ := Option.isSome_iff_exists.1 present
    rw [← tensorsBefore_eq_iff, ← takes n member op given]
    exact all op given
  · intro before op given
    rw [takes n member op given, tensorsBefore_eq_iff]
    exact before (Option.isSome_iff_exists.2 ⟨op, given⟩)

/-- The record of an input node. -/
def sourceRecord : Value :=
  .map [("id", .text "x"), ("kind", .text "input"),
    ("tensor", .map [("shape", .list [.int 2]), ("dtype", .text "float32")])]

/-- The record of an operation on that node. -/
def takerRecord : Value :=
  .map [("id", .text "r"), ("kind", .text "op"), ("inputs", .list [.text "x"]),
    ("op", .map [("kind", .text "relu")])]

theorem resolved_source_first : ∃ g,
    toGraph (.map [("nodes", .list [sourceRecord, takerRecord])]) = .ok g ∧
    g.names = ["x", "r"] ∧ Resolved g := by
  obtain ⟨⟨base, records⟩, there⟩ : ∃ start,
      opened (.map [("nodes", .list [sourceRecord, takerRecord])]) = .ok start := ⟨_, rfl⟩
  obtain ⟨g, loaded, names_eq, before⟩ : ∃ g,
      toGraph (.map [("nodes", .list [sourceRecord, takerRecord])]) = .ok g ∧
      g.names = ["x", "r"] ∧
      ∀ n ∈ g.nodes, ∀ p ∈ n.inputs, g.names.idxOf p < g.names.idxOf n.name :=
    ⟨_, rfl, rfl, by decide⟩
  obtain ⟨_, _, resolved_iff⟩ := resolved_iff_listed_before there loaded
  refine ⟨g, loaded, names_eq, ?_⟩
  apply resolved_iff.2
  exact fun n member _ p takes _ => before n member p takes

/-- The same records the other way round: the input of the operation is missing, and its node is
there. -/
theorem input_missing_taker_first : ∃ g n op,
    toGraph (.map [("nodes", .list [takerRecord, sourceRecord])]) = .ok g ∧ n ∈ g.nodes ∧
    n.operation = some op ∧ op.inputs = [none] ∧
    n.inputs.map g.tensor? = [some (.empty ⟨[2]⟩ .float32)] ∧ ¬ Resolved g := by
  obtain ⟨g, n, op, loaded, member, given, missing, there⟩ : ∃ g n op,
      toGraph (.map [("nodes", .list [takerRecord, sourceRecord])]) = .ok g ∧ n ∈ g.nodes ∧
      n.operation = some op ∧ op.inputs = [none] ∧
      n.inputs.map g.tensor? = [some (.empty ⟨[2]⟩ .float32)] :=
    ⟨_, _, _, rfl, List.mem_cons_self, rfl, rfl, rfl⟩
  refine ⟨g, n, op, loaded, member, given, missing, there, fun resolved => ?_⟩
  have alike := resolved n member op given
  rw [missing, there] at alike
  cases alike

end TensorGraph.Document
