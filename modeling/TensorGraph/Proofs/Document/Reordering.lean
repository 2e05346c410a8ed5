import TensorGraph.Proofs.Document.Loading

/-!
Documents whose records stand in another order. A record holds the same node wherever it is listed,
so a permuted document gives a graph with the same nodes. What the two passes over the records tell
a node of its successors comes in another order then, but it is the same: every node that takes an
input from it, once.
-/

namespace TensorGraph.Document

open TensorGraph.Graph

variable {g base : Graph} {ns : List Node} {doc : Value} {records records' : List Value}

/-- A document with other records of nodes. -/
def withRecords (records : List Value) : Value → Value
  | .map entries => .map (Entries.put entries "nodes" (.list records))
  | doc => doc

theorem opened_withRecords (opened : opened doc = .ok (base, records)) (records' : List Value) :
    Document.opened (withRecords records' doc) = .ok (base, records') := by
  obtain ⟨entries, read, opened⟩ := bind_eq_ok_iff.1 opened
  obtain ⟨metadata, metadata_read, opened⟩ := bind_eq_ok_iff.1 opened
  obtain ⟨_, _, made⟩ := bind_eq_ok_iff.1 opened
  cases made
  cases doc with
  | map entries' =>
      obtain rfl : entries' = entries := by simpa using read
      have other {key : String} (ne : key ≠ "nodes") (default : Value) :
          entryOr (Entries.put entries' "nodes" (.list records')) key default =
            entryOr entries' key default := by
        rw [entryOr, Entries.get?_put_of_ne _ _ ne, entryOr]
      have nodes : entryOr (Entries.put entries' "nodes" (.list records')) "nodes" (.list []) =
          .list records' := by
        rw [entryOr, Entries.get?_put_self, Option.getD_some]
      rw [withRecords, Document.opened, entriesOrFail_map, ok_bind, other (by decide),
        metadata_read, ok_bind, other (by decide), nodes]
      rfl
  | _ => cases read

/-! ### What loading makes of nodes -/

/-- A graph that is loaded from records that hold these nodes. -/
structure LoadedFrom (base : Graph) (ns : List Node) (g : Graph) : Prop where
  tied : g.Tied
  registered : g.Registered
  name_eq : g.name = base.name
  metadata_eq : g.metadata = base.metadata
  nodes : List.Forall₂ SameNode ns g.nodes

/-- Records that hold nodes of different names are loaded, in whatever order they stand. -/
theorem exists_loadedFrom (opened : opened doc = .ok (base, records))
    (held : List.Forall₂ Holds records ns) (nodup : (ns.map Node.name).Nodup) :
    ∃ g, toGraph doc = .ok g ∧ LoadedFrom base ns g := by
  obtain ⟨whole, added, tidy, name_eq, metadata_eq, same⟩ :=
    exists_foldlM_addRecord (tidy_bare base) .nil held nodup
  have loaded : toGraph doc = .ok (whole.mapNodes (completed whole.nodes)) := by
    rw [toGraph_eq_ok_iff opened]
    exact ⟨whole, added, foldl_relink_eq_mapNodes tidy.indexed whole.nodes⟩
  refine ⟨_, loaded, tied_completed tidy, (consistent_of_toGraph opened loaded).registered,
    name_eq, metadata_eq, ?_⟩
  rw [nodes_mapNodes, List.forall₂_map_right_iff]
  exact same.imp fun _ _ alike => alike.withOutputs _

/-- Every graph that is loaded comes from nodes that the records hold. -/
theorem exists_holds_of_toGraph (opened : opened doc = .ok (base, records))
    (loaded : toGraph doc = .ok g) :
    ∃ ns, List.Forall₂ Holds records ns ∧ (ns.map Node.name).Nodup ∧ LoadedFrom base ns g := by
  obtain ⟨whole, added, _⟩ := (toGraph_eq_ok_iff opened).1 loaded
  obtain ⟨tidy, ns, held, same⟩ := exists_holds added
  have nodup : (ns.map Node.name).Nodup := by
    rw [← map_of_forall₂ same fun _ _ _ _ alike => alike.name_eq]
    exact tidy.indexed.nodup_names
  obtain ⟨g', loaded', from_ns⟩ := exists_loadedFrom opened held nodup
  obtain rfl : g' = g := Except.ok.inj (loaded'.symm.trans loaded)
  exact ⟨ns, held, nodup, from_ns⟩

/-- Loading ties the edges of a graph: both of their ends know them. -/
theorem tied_of_toGraph (loaded : toGraph doc = .ok g) : g.Tied := by
  obtain ⟨_, opened, _⟩ := bind_eq_ok_iff.1 loaded
  obtain ⟨_, _, _, from_records⟩ := exists_holds_of_toGraph opened loaded
  exact from_records.tied

/-! ### Permutations -/

/-- **Order of records.** A document that is accepted is accepted with its records in any other
order. Both graphs have the same name, metadata and nodes; the checks find the same in both, and
inference gives both the same types or fails on both. In either graph a node is listed once among
the successors of each node that it takes an input from, and it is not listed elsewhere. -/
theorem permuted_same (opened : opened doc = .ok (base, records)) (loaded : toGraph doc = .ok g)
    (perm : records.Perm records') :
    ∃ g', toGraph (withRecords records' doc) = .ok g' ∧
      g'.name = g.name ∧ g'.metadata = g.metadata ∧ SameNodes g g' ∧
      g'.validate = g.validate ∧
      (∀ setting, SameTypes (g.forwardTypes setting) (g'.forwardTypes setting)) ∧
      (∀ m ∈ g.nodes, ∀ n ∈ g.nodes,
        m.outputs.count n.name = if m.name ∈ n.inputs then 1 else 0) ∧
      ∀ m ∈ g'.nodes, ∀ n ∈ g'.nodes,
        m.outputs.count n.name = if m.name ∈ n.inputs then 1 else 0 := by
  obtain ⟨ns, held, nodup, from_ns⟩ := exists_holds_of_toGraph opened loaded
  obtain ⟨ns', held', perm'⟩ := List.perm_comp_forall₂ perm.symm held
  obtain ⟨g', loaded', from_ns'⟩ := exists_loadedFrom (opened_withRecords opened records') held'
    ((perm'.map Node.name).nodup_iff.2 nodup)
  have indexed := from_ns.tied.indexed
  have indexed' := from_ns'.tied.indexed
  have same : SameNodes g g' :=
    indexed.sameNodes_of_perm indexed' perm'.symm from_ns.nodes from_ns'.nodes
  refine ⟨g', loaded', ?_, ?_, same, ?_, ?_, ?_, ?_⟩
  · rw [from_ns'.name_eq, from_ns.name_eq]
  · rw [from_ns'.metadata_eq, from_ns.metadata_eq]
  · apply same.validate_eq
    · exact from_ns.tied.checkable from_ns.registered
    · exact from_ns'.tied.checkable from_ns'.registered
  · exact fun _ => same.sameTypes indexed indexed'
  · exact fun m member n member' => from_ns.tied.count_outputs member member'
  · exact fun m member n member' => from_ns'.tied.count_outputs member member'

/-- An operation that takes its input twice and is listed before it, and an output that also names
a missing input. -/
def doubled : Value :=
  .map [("name", .text "g"), ("nodes", .list [
    .map [("id", .text "s"), ("kind", .text "op"), ("inputs", .list [.text "x", .text "x"]),
      ("op", .map [("kind", .text "add")])],
    .map [("id", .text "x"), ("kind", .text "input"),
      ("tensor", .map [("shape", .list [.int 2]), ("dtype", .text "float32")])],
    .map [("id", .text "y"), ("kind", .text "output"),
      ("inputs", .list [.text "z", .text "s"])]])]

theorem permuted_doubled : ∃ base records g g', opened doubled = .ok (base, records) ∧
    toGraph doubled = .ok g ∧ records.Perm records.reverse ∧
    toGraph (withRecords records.reverse doubled) = .ok g' ∧ SameNodes g g' ∧
    g'.validate = g.validate ∧ SameTypes (g.forwardTypes none) (g'.forwardTypes none) ∧
    g.outputs = ["y"] ∧ (∀ m ∈ g'.nodes, ∀ n ∈ g'.nodes,
      m.outputs.count n.name = if m.name ∈ n.inputs then 1 else 0) := by
  obtain ⟨⟨base, records⟩, there⟩ : ∃ start, opened doubled = .ok start := ⟨_, rfl⟩
  obtain ⟨g, loaded, outputs_eq⟩ : ∃ g, toGraph doubled = .ok g ∧ g.outputs = ["y"] :=
    ⟨_, rfl, rfl⟩
  have perm : records.Perm records.reverse := (List.reverse_perm records).symm
  obtain ⟨g', loaded', _, _, same, checks, types, _, edges⟩ := permuted_same there loaded perm
  exact ⟨base, records, g, g', there, loaded, perm, loaded', same, checks, types none, outputs_eq,
    edges⟩

end TensorGraph.Document
