import TensorGraph.Proofs.Document.Records
import TensorGraph.Proofs.Graph.History
import TensorGraph.Proofs.Graph.Validity

/-!
How the records of a document become nodes. A record is read while the graph is half loaded, but all
that it takes from there are tensors that stand for the inputs of its operation. So every record
holds one node, wherever it is listed, and records are accepted as long as their names differ.
Successors are told in two passes: an addition tells the nodes that are there by then, and the pass
over all nodes tells the others. Together they tell each node of all that take an input from it,
once each.
-/

namespace TensorGraph.Document

open TensorGraph.Graph

variable {g g' base whole : Graph} {n m : Node} {ns old : List Node} {record doc : Value}
  {records : List Value} {names later : List String} {name : String}

/-! ### Reading a record -/

/-- A node whose operation has the tensors of its inputs from a graph. -/
def resolved (g : Graph) (n : Node) : Node :=
  { n with operation := n.operation.map fun op => { op with inputs := n.inputs.map g.tensor? } }

/-- What a record says of an operation does not depend on the inputs. -/
theorem operationOf_inputs {op : Operation} {inputs : List (Option Reference)}
    (made : operationOf record inputs = .ok op) (inputs' : List (Option Reference)) :
    operationOf record inputs' = .ok { op with inputs := inputs' } := by
  obtain ⟨entries, read, made⟩ := bind_eq_ok_iff.1 made
  obtain ⟨kindValue, kind_there, made⟩ := bind_eq_ok_iff.1 made
  obtain ⟨kind, kind_read, made⟩ := bind_eq_ok_iff.1 made
  obtain ⟨hint, hint_read, made⟩ := bind_eq_ok_iff.1 made
  obtain ⟨attributes, attributes_read, made⟩ := bind_eq_ok_iff.1 made
  cases made
  simp [operationOf, read, kind_there, kind_read, hint_read, attributes_read]

/-- An entry that two readers understand alike, up to a change. -/
theorem whenPresent_map {α : Type} {entries : Entries Value} {key : String}
    {read read' : Value → Except Error α} {found : Option α} (change : α → α)
    (given : whenPresent entries key read = .ok found)
    (alike : ∀ value a, read value = .ok a → read' value = .ok (change a)) :
    whenPresent entries key read' = .ok (found.map change) := by
  rw [whenPresent] at given ⊢
  cases there : entries.get? key with
  | none =>
      rw [there] at given
      cases given
      rfl
  | some value =>
      rw [there] at given
      cases made : read value with
      | error e => simp [made] at given
      | ok a =>
          simp only [made, map_ok, Except.ok.injEq] at given
          simp [alike value a made, ← given]

/-- A record is read as the same node in every graph, but for the inputs of its operation. -/
theorem nodeOf_resolved (made : nodeOf g record = .ok n) :
    n.outputs = [] ∧ ∀ g', nodeOf g' record = .ok (resolved g' n) := by
  obtain ⟨entries, read, made⟩ := bind_eq_ok_iff.1 made
  dsimp only at made
  split at made
  · cases made
  · next present =>
    obtain ⟨kind, kind_read, made⟩ := bind_eq_ok_iff.1 made
    obtain ⟨items, items_read, made⟩ := bind_eq_ok_iff.1 made
    obtain ⟨tensor, tensor_read, made⟩ := bind_eq_ok_iff.1 made
    obtain ⟨inputs, inputs_read, made⟩ := bind_eq_ok_iff.1 made
    obtain ⟨operation, operation_read, made⟩ := bind_eq_ok_iff.1 made
    obtain ⟨metadata, metadata_read, made⟩ := bind_eq_ok_iff.1 made
    obtain ⟨name, named, made⟩ := bind_eq_ok_iff.1 made
    cases made
    refine ⟨rfl, fun g' => ?_⟩
    have operation_read' : (whenPresent entries "op" fun record => do
        let op ← operationOf record (inputs.map fun p => (g'.node? p).bind Node.tensor)
        .ok { op with output := tensor }) =
          .ok (operation.map fun op => { op with inputs := inputs.map g'.tensor? }) := by
      refine whenPresent_map _ operation_read fun value op made => ?_
      obtain ⟨op', made', last⟩ := bind_eq_ok_iff.1 made
      cases last
      rw [operationOf_inputs made', ok_bind]
      rfl
    rw [nodeOf, read, ok_bind]
    simp [present, kind_read, items_read, tensor_read, inputs_read, operation_read', metadata_read,
      named, resolved]

/-- A record holds a node: in whatever graph it is read, it is read as that node, without
successors. -/
def Holds (record : Value) (n : Node) : Prop :=
  ∀ g, ∃ m, nodeOf g record = .ok m ∧ m.outputs = [] ∧ SameNode n m

theorem sameNode_resolved (g : Graph) (n : Node) : SameNode n (resolved g n) where
  name_eq := rfl
  inputs_eq := rfl
  kind_eq := rfl
  tensor_eq := rfl
  metadata_eq := rfl
  operation_rel := by
    rw [resolved]
    cases n.operation with
    | none => exact .none
    | some op => exact .some ⟨rfl, rfl, rfl, rfl⟩

theorem holds_of_nodeOf (made : nodeOf g record = .ok n) : Holds record n := by
  obtain ⟨fresh, everywhere⟩ := nodeOf_resolved made
  exact fun g' => ⟨_, everywhere g', fresh, sameNode_resolved g' n⟩

theorem holds_nodeRecord (named : n.name ≠ "") : Holds (nodeRecord n) n :=
  fun g => ⟨_, nodeOf_nodeRecord g named, rfl, sameNode_restored g n⟩

/-! ### Adding the nodes -/

/-- Records are accepted as long as the names of their nodes are new and differ. -/
theorem exists_foldlM_addRecord (tidy : base.Tidy) (same : List.Forall₂ SameNode old base.nodes)
    (held : List.Forall₂ Holds records ns) (nodup : (base.names ++ ns.map Node.name).Nodup) :
    ∃ g', records.foldlM addRecord base = .ok g' ∧ g'.Tidy ∧ g'.name = base.name ∧
      g'.metadata = base.metadata ∧ List.Forall₂ SameNode (old ++ ns) g'.nodes := by
  -- The nodes that are there so far agree with `old`; what an addition tells them of the new node
  -- is a successor, and that is not compared.
  induction held generalizing base old with
  | nil => exact ⟨base, rfl, tidy, rfl, rfl, by simpa using same⟩
  | @cons record n records ns holds _ ih =>
      obtain ⟨m, made, without_outputs, alike⟩ := holds base
      have fresh : m.name ∉ base.names := by
        rw [alike.name_eq]
        exact fun member => (List.nodup_append.1 nodup).2.2 _ member _ List.mem_cons_self rfl
      have added := tidy.indexed.add_eq fresh
      generalize next_eq : ((base.insert m).mapNodes (feed m)).register m = next at added
      have step : addRecord base record = .ok next := by
        rw [addRecord, made, ok_bind, added]
      have next_same : List.Forall₂ SameNode (old ++ [n]) next.nodes :=
        tidy.indexed.forall₂_nodes_add added same alike
      have next_names : next.names = base.names ++ [n.name] := by
        rw [tidy.indexed.names_add added, alike.name_eq]
      obtain ⟨g', loaded, g'_tidy, name_eq, metadata_eq, g'_same⟩ :=
        ih (tidy.add without_outputs added) next_same
          (by rw [next_names, List.append_assoc]; exact nodup)
      refine ⟨g', ?_, g'_tidy, ?_, ?_, by simpa using g'_same⟩
      · rw [List.foldlM_cons, step, ok_bind, loaded]
      · rw [name_eq, ← next_eq, name_register]
        rfl
      · rw [metadata_eq, ← next_eq, metadata_register]
        rfl

/-- A graph without nodes, as it is before the first record is read. -/
def bare (g : Graph) : Graph := { name := g.name, metadata := g.metadata }

theorem tidy_bare (g : Graph) : (bare g).Tidy :=
  ⟨indexed_of_no_slots rfl rfl, trivial, ⟨rfl, rfl⟩⟩

theorem bare_of_opened (opened : opened doc = .ok (base, records)) : bare base = base := by
  obtain ⟨entries, _, opened⟩ := bind_eq_ok_iff.1 opened
  obtain ⟨metadata, _, opened⟩ := bind_eq_ok_iff.1 opened
  obtain ⟨items, _, made⟩ := bind_eq_ok_iff.1 opened
  cases made
  rfl

/-- Records that are accepted hold nodes, and the graph has these nodes in their order. -/
theorem exists_holds (loaded : records.foldlM addRecord (bare base) = .ok g) :
    g.Tidy ∧ ∃ ns, List.Forall₂ Holds records ns ∧ List.Forall₂ SameNode ns g.nodes := by
  apply foldlM_addRecord_induction
    (P := fun g read => g.Tidy ∧ ∃ ns, List.Forall₂ Holds read ns ∧
      List.Forall₂ SameNode ns g.nodes) _ [] ⟨tidy_bare base, [], .nil, .nil⟩ loaded
  intro g g' n record read before made added
  obtain ⟨tidy, ns, held, same⟩ := before
  refine ⟨tidy.add (nodeOf_resolved made).1 added, ns ++ [n], ?_, ?_⟩
  · exact List.rel_append held (.cons (holds_of_nodeOf made) .nil)
  · exact tidy.indexed.forall₂_nodes_add added same (.refl n)

/-! ### The pass over all nodes -/

theorem mem_foldl_appended :
    name ∈ later.foldl appended names ↔ name ∈ names ∨ name ∈ later := by
  induction later generalizing names with
  | nil => simp
  | cons first later ih =>
      have mem_appended : name ∈ appended names first ↔ name ∈ names ∨ name = first := by
        rw [appended]
        split
        · next there =>
          constructor
          · exact .inl
          · rintro (listed | rfl)
            · exact listed
            · exact there
        · simp
      rw [List.foldl_cons, ih, mem_appended, List.mem_cons, or_assoc]

theorem nodup_foldl_appended (nodup : names.Nodup) : (later.foldl appended names).Nodup := by
  induction later generalizing names with
  | nil => exact nodup
  | cons first later ih =>
      apply ih
      rw [appended]
      split
      · exact nodup
      · next absent => simpa using nodup.concat absent

/-- A node once it has been told of all nodes of a list that take an input from it. -/
def completed (ns : List Node) (n : Node) : Node :=
  { n with outputs := (takers n.name ns).foldl appended n.outputs }

@[simp] theorem name_completed : (completed ns n).name = n.name := rfl

@[simp] theorem inputs_completed : (completed ns n).inputs = n.inputs := rfl

theorem relink_eq_mapNodes (indexed : g.Indexed) (n : Node) :
    relink g n = g.mapNodes (completed [n]) := by
  let gain (m : Node) : Node := { m with outputs := appended m.outputs n.name }
  have idem (m : Node) : gain (gain m) = gain m := by
    by_cases listed : n.name ∈ m.outputs <;> simp [gain, appended, listed]
  have told := indexed.foldl_modify_eq_of_idem gain (fun _ => rfl) idem n.inputs
  refine told.trans (mapNodes_congr fun m _ => ?_)
  by_cases taken : m.name ∈ n.inputs <;> simp [completed, takers, gain, taken]

/-- The pass tells each node of all that take an input from it, in the order of the pass. -/
theorem foldl_relink_eq_mapNodes (indexed : g.Indexed) (ns : List Node) :
    ns.foldl relink g = g.mapNodes (completed ns) := by
  induction ns generalizing g with
  | nil => exact (mapNodes_of_forall fun _ _ => rfl).symm
  | cons n ns ih =>
      have next : (g.mapNodes (completed [n])).Indexed := indexed.mapNodes fun _ => name_completed
      rw [List.foldl_cons, relink_eq_mapNodes indexed, ih next, mapNodes_mapNodes]
      apply mapNodes_congr
      intro m _
      have split : takers m.name (n :: ns) = takers m.name [n] ++ takers m.name ns := by
        rw [← takers_append, List.singleton_append]
      simp [completed, split]

/-- The successors of a node that its additions did not tell it of are told by the pass. -/
theorem tied_completed (tidy : whole.Tidy) :
    (whole.mapNodes (completed whole.nodes)).Tied where
  indexed := tidy.indexed.mapNodes fun _ => name_completed
  nodup_outputs := by
    rw [nodes_mapNodes, List.forall_mem_map]
    intro n member
    apply nodup_foldl_appended
    exact (tidy.indexed.nodup_takers n.name).sublist (tidy.linked.outputs_sublist member)
  mem_outputs_iff := by
    rw [nodes_mapNodes, List.forall_mem_map]
    intro n member taker
    rw [takers_map (fun _ => name_completed) (fun _ => by rw [inputs_completed]), completed,
      mem_foldl_appended]
    constructor
    · rintro (told | takes)
      · exact (tidy.linked.outputs_sublist member).subset told
      · exact takes
    · exact .inr

/-- A graph is loaded record by record, and then its successors are completed. -/
theorem toGraph_eq_ok_iff (opened : opened doc = .ok (base, records)) :
    toGraph doc = .ok g ↔ ∃ whole, records.foldlM addRecord (bare base) = .ok whole ∧
      whole.nodes.foldl relink whole = g := by
  rw [toGraph, opened, ok_bind, bare_of_opened opened]
  simp only [bind_eq_ok_iff, pure_eq_ok, Except.ok.injEq]

end TensorGraph.Document
