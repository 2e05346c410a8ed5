import TensorGraph.Document.ToGraph
import TensorGraph.Graph.Combine
import TensorGraph.Proofs.Graph.Edits

/-!
Every operation that makes or changes a graph leaves its index right, so a look-up by name finds
the node that has the name, after any history of additions, removals, copies, restrictions,
unions and loads.
-/

namespace TensorGraph.Graph

variable {g g' base : Graph} {n : Node} {name : String} {ns : List Node}

/-- A graph that some history of operations leads to. Operations that fail make no graph. Whoever
holds a node can change all of it but its name; another graph that shares it does so. -/
inductive Reached : Graph → Prop where
  | empty (name : Value) : Reached (.empty name)
  | add {g g' : Graph} {n : Node} (before : Reached g) (added : g.add n = .ok g') : Reached g'
  | remove {g : Graph} (before : Reached g) (name : String) : Reached (g.remove name)
  | modify {g : Graph} {change : Node → Node} (before : Reached g) (name : String)
      (keeps : ∀ n, (change n).name = n.name) : Reached (g.modify name change)
  | setMeta {g : Graph} (before : Reached g) (key : String) (value : Value) :
      Reached (g.setMeta key value)
  | clone {g : Graph} (before : Reached g) : Reached g.clone
  | subgraph {g : Graph} (before : Reached g) (names : List String) : Reached (g.subgraph names)
  | merge {g other union : Graph} {stem : Option String} (one : Reached g) (two : Reached other)
      (merged : g.merge other stem = .ok union) : Reached union
  | load {g : Graph} {doc : Value} (loaded : Document.toGraph doc = .ok g) : Reached g

theorem indexed_of_no_slots (slots : g.slots = []) (index : g.index = .empty) : g.Indexed := by
  intro name slot
  simp [slots, index]

theorem names_insert : (g.insert n).names = g.names ++ [n.name] := by
  simp [names]

/-- A change of one node that keeps its name. -/
theorem Indexed.modify (indexed : g.Indexed) {change : Node → Node}
    (keeps : ∀ n, (change n).name = n.name) : (g.modify name change).Indexed := by
  rw [indexed.modify_eq]
  apply indexed.mapNodes
  intro n
  split
  · exact keeps n
  · rfl

/-- Nodes that are put in one after the other, each under a name of its own. -/
theorem Indexed.foldl_insert (indexed : base.Indexed)
    (nodup : (base.names ++ ns.map Node.name).Nodup) : (ns.foldl Graph.insert base).Indexed := by
  induction ns generalizing base with
  | nil => exact indexed
  | cons n ns ih =>
      have fresh : n.name ∉ base.names := fun member =>
        (List.nodup_append.1 nodup).2.2 _ member _ (by simp) rfl
      refine ih (indexed.insert fresh) ?_
      rw [names_insert, List.append_assoc]
      exact nodup

theorem Indexed.clone (indexed : g.Indexed) : g.clone.Indexed := by
  refine (indexed_of_no_slots rfl rfl).foldl_insert ?_
  simpa [names, nodes] using indexed.nodup_names

/-- What each node that is selected keeps when it is put in and noted, a restriction has. -/
theorem Indexed.foldl_select_induction (indexed : g.Indexed) {P : Graph → List String → Prop}
    (step : ∀ part listed n, P part listed → n.name ∉ listed →
      P ((part.insert n).register n) (listed ++ [n.name]))
    (selected : List String) {part : Graph} {names listed : List String} (start : P part listed)
    (present : ∀ name ∈ names, name ∈ g.names) (nodup : (listed ++ names).Nodup) :
    P (names.foldl (g.select selected) part) (listed ++ names) := by
  induction names generalizing part listed with
  | nil => simpa using start
  | cons name rest ih =>
      obtain ⟨n, member, rfl⟩ := mem_names.1 (present name List.mem_cons_self)
      have fresh : n.name ∉ listed := fun earlier =>
        (List.nodup_append.1 nodup).2.2 _ earlier _ List.mem_cons_self rfl
      have next : P (g.select selected part n.name) (listed ++ [n.name]) := by
        rw [Graph.select, indexed.node?_of_mem member]
        exact step part listed _ start fresh
      have both := ih next (fun other later => present other (List.mem_cons_of_mem _ later))
        (by simpa using nodup)
      simpa using both

/-- A restriction takes in the nodes whose names are listed, once each. -/
theorem Indexed.subgraph_induction (indexed : g.Indexed) {P : Graph → List String → Prop}
    (start : ∀ title, P (.empty title) [])
    (step : ∀ part listed n, P part listed → n.name ∉ listed →
      P ((part.insert n).register n) (listed ++ [n.name])) (names : List String) :
    P (g.subgraph names) ((distinct names).filter (· ∈ g.names)) := by
  have selected_eq : (distinct names).filter g.has = (distinct names).filter (· ∈ g.names) := by
    apply List.filter_congr
    intro name _
    rw [Bool.eq_iff_iff, indexed.has_iff, decide_eq_true_eq]
  rw [Graph.subgraph, selected_eq]
  apply indexed.foldl_select_induction step _ (start _)
  · intro name listed
    simpa using (List.mem_filter.1 listed).2
  · exact (nodup_distinct names).sublist List.filter_sublist

theorem Indexed.subgraph (indexed : g.Indexed) (names : List String) :
    (g.subgraph names).Indexed := by
  suffices both : (g.subgraph names).Indexed ∧
      (g.subgraph names).names = (distinct names).filter (· ∈ g.names) from both.1
  apply indexed.subgraph_induction (P := fun part listed => part.Indexed ∧ part.names = listed)
  · intro title
    exact ⟨indexed_of_no_slots rfl rfl, rfl⟩
  · intro part listed n before fresh
    rcases before with ⟨part_indexed, rfl⟩
    refine ⟨(part_indexed.insert fresh).register, ?_⟩
    rw [Graph.names, nodes_register, ← Graph.names, names_insert]

/-- A union takes in no node of a name that is there. -/
theorem Indexed.foldlM_absorb (indexed : base.Indexed) {other : Value} {union : Graph}
    (absorbed : ns.foldlM (absorb other) base = .ok union) : union.Indexed := by
  induction ns generalizing base with
  | nil =>
      obtain rfl : base = union := by simpa using absorbed
      exact indexed
  | cons n ns ih =>
      obtain ⟨next, step, absorbed⟩ := bind_eq_ok_iff.1 absorbed
      rw [absorb] at step
      split at step
      · cases step
      · next absent =>
        cases step
        exact ih (indexed.insert fun member => absent (indexed.has_iff.2 member)) absorbed

theorem Indexed.merge (indexed : g.Indexed) {other union : Graph} {stem : Option String}
    (merged : g.merge other stem = .ok union) : union.Indexed := by
  obtain ⟨whole, absorbed, named⟩ := bind_eq_ok_iff.1 merged
  have whole_indexed : whole.Indexed := indexed.clone.foldlM_absorb absorbed
  cases named
  exact whole_indexed

/-- What every addition of a node keeps, the addition of many keeps. -/
theorem foldlM_add_induction {P : Graph → Prop}
    (step : ∀ g g' n, P g → g.add n = .ok g' → P g') (start : P g)
    (added : ns.foldlM Graph.add g = .ok g') : P g' := by
  induction ns generalizing g with
  | nil =>
      obtain rfl : g = g' := by simpa using added
      exact start
  | cons n ns ih =>
      obtain ⟨next, added_first, added⟩ := bind_eq_ok_iff.1 added
      exact ih (step _ _ n start added_first) added

theorem Reached.foldlM_add (reached : g.Reached) (added : ns.foldlM Graph.add g = .ok g') :
    g'.Reached :=
  foldlM_add_induction (fun _ _ _ before added => before.add added) reached added

/-! ### Documents -/

/-- The name in a record of a node. -/
def recordName? (record : Value) : Option String :=
  record.entries?.bind fun entries => (Document.entryOr entries "id" .null).text?

/-- A node has the name in its record. -/
theorem recordName?_of_nodeOf {record : Value} (made : Document.nodeOf g record = .ok n) :
    recordName? record = some n.name := by
  obtain ⟨entries, read, made⟩ := bind_eq_ok_iff.1 made
  dsimp only at made
  split at made
  · cases made
  · -- The name is what is read last.
    obtain ⟨_, _, made⟩ := bind_eq_ok_iff.1 made
    obtain ⟨_, _, made⟩ := bind_eq_ok_iff.1 made
    obtain ⟨_, _, made⟩ := bind_eq_ok_iff.1 made
    obtain ⟨_, _, made⟩ := bind_eq_ok_iff.1 made
    obtain ⟨_, _, made⟩ := bind_eq_ok_iff.1 made
    obtain ⟨_, _, made⟩ := bind_eq_ok_iff.1 made
    obtain ⟨name, named, made⟩ := bind_eq_ok_iff.1 made
    cases made
    rw [recordName?, orError_eq_ok_iff.1 read, Option.bind_some]
    exact orError_eq_ok_iff.1 named

section Loading

variable {P : Graph → List Value → Prop}
  (add : ∀ g g' n record read, P g read → Document.nodeOf g record = .ok n → g.add n = .ok g' →
    P g' (read ++ [record]))
  (tell : ∀ g read name (outputs : Node → List String), P g read →
    P (g.modify name fun n => { n with outputs := outputs n }) read)

include add in
/-- Each record of a document adds a node. -/
theorem foldlM_addRecord_induction {records : List Value} (read : List Value)
    (start : P base read) (loaded : records.foldlM Document.addRecord base = .ok g) :
    P g (read ++ records) := by
  induction records generalizing base read with
  | nil =>
      obtain rfl : base = g := by simpa using loaded
      simpa using start
  | cons record records ih =>
      obtain ⟨next, step, loaded⟩ := bind_eq_ok_iff.1 loaded
      obtain ⟨n, made, added⟩ := bind_eq_ok_iff.1 step
      have both := ih _ (add _ _ n _ _ start made added) loaded
      simpa using both

include tell in
/-- Making a node a successor of others changes successors only. -/
theorem relink_induction {read : List Value} (n : Node) (start : P base read) :
    P (Document.relink base n) read := by
  rw [Document.relink]
  induction n.inputs generalizing base with
  | nil => exact start
  | cons p ps ih => exact ih (tell base read p _ start)

include tell in
theorem foldl_relink_induction {read : List Value} (ns : List Node) (start : P base read) :
    P (ns.foldl Document.relink base) read := by
  induction ns generalizing base with
  | nil => exact start
  | cons n ns ih => exact ih (relink_induction tell n start)

include add tell in
/-- A graph that is loaded starts without nodes; each record adds a node, and then successors are
completed. -/
theorem toGraph_induction {doc : Value} {records : List Value}
    (start : ∀ name metadata, P { name, metadata } [])
    (opened : Document.opened doc = .ok (base, records)) (loaded : Document.toGraph doc = .ok g) :
    P g records := by
  obtain ⟨⟨start', records'⟩, opened', loaded⟩ := bind_eq_ok_iff.1 loaded
  cases opened.symm.trans opened'
  obtain ⟨whole, added, linked⟩ := bind_eq_ok_iff.1 loaded
  cases linked
  obtain ⟨entries, _, opened⟩ := bind_eq_ok_iff.1 opened
  obtain ⟨metadata, _, opened⟩ := bind_eq_ok_iff.1 opened
  obtain ⟨items, _, made⟩ := bind_eq_ok_iff.1 opened
  cases made
  apply foldl_relink_induction tell
  exact foldlM_addRecord_induction add [] (start _ _) added

end Loading

theorem indexed_of_toGraph {doc : Value} (loaded : Document.toGraph doc = .ok g) :
    g.Indexed := by
  obtain ⟨⟨start, records⟩, opened, _⟩ := bind_eq_ok_iff.1 loaded
  apply toGraph_induction (P := fun g _ => g.Indexed) _ _ _ opened loaded
  · exact fun _ _ _ _ _ indexed _ added => indexed.add added
  · exact fun _ _ _ _ indexed => indexed.modify fun _ => rfl
  · exact fun _ _ => indexed_of_no_slots rfl rfl

/-- The index is right in every graph that is reached. -/
theorem Reached.indexed (reached : g.Reached) : g.Indexed := by
  induction reached with
  | empty name => exact indexed_of_no_slots rfl rfl
  | add _ added ih => exact ih.add added
  | remove _ name ih => exact ih.remove name
  | modify _ name keeps ih => exact ih.modify keeps
  | setMeta _ _ _ ih => exact ih
  | clone _ ih => exact ih.clone
  | subgraph _ names ih => exact ih.subgraph names
  | merge _ _ merged ih _ => exact ih.merge merged
  | load loaded => exact indexed_of_toGraph loaded

end TensorGraph.Graph
