import Mathlib.Data.List.Count
import Mathlib.Data.List.Nodup
import Mathlib.Logic.Function.Iterate
import TensorGraph.Graph.Basic

/-!
The store of a graph. The index and the slots agree in every graph that the operations make, and
then a graph is, to everyone who asks it by name, the list of its nodes: a look-up finds the node
of that name in the list, and every change of the store is a change of the list.
-/

namespace TensorGraph.Graph

/-- The names of all nodes, in the order of the nodes. -/
def names (g : Graph) : List String := g.nodes.map Node.name

/-- The index sends a name to a slot if and only if a node of that name lies there. -/
def Indexed (g : Graph) : Prop :=
  ∀ name slot, g.index.get? name = some slot ↔
    ∃ n, g.slots[slot]? = some (some n) ∧ n.name = name

/-- The tensor of the node that a name designates. -/
def tensor? (g : Graph) (name : String) : Option Reference := (g.node? name).bind Node.tensor

/-- Changes every node. -/
def mapNodes (g : Graph) (change : Node → Node) : Graph :=
  { g with slots := g.slots.map (Option.map change) }

variable {g : Graph} {n m : Node} {name : String} {change : Node → Node}

/-! ### Looking up nodes -/

theorem mem_nodes : n ∈ g.nodes ↔ ∃ slot : Nat, g.slots[slot]? = some (some n) := by
  rw [nodes, List.mem_filterMap]
  simp [List.mem_iff_getElem?]

theorem mem_names : name ∈ g.names ↔ ∃ n ∈ g.nodes, n.name = name := by
  simp [names]

/-- A look-up by name finds a node if and only if the node is there and has that name. -/
theorem Indexed.node?_eq_some_iff (indexed : g.Indexed) :
    g.node? name = some n ↔ n ∈ g.nodes ∧ n.name = name := by
  constructor
  · intro found
    obtain ⟨slot, at_slot, lies⟩ :
        ∃ slot, g.index.get? name = some slot ∧ g.slots[slot]? = some (some n) := by
      simpa [node?, Option.bind_eq_some_iff] using found
    obtain ⟨m, lies', named⟩ := (indexed name slot).1 at_slot
    obtain rfl : m = n := by simpa [lies] using lies'.symm
    exact ⟨mem_nodes.2 ⟨slot, lies⟩, named⟩
  · intro there
    rcases there with ⟨member, named⟩
    obtain ⟨slot, lies⟩ := mem_nodes.1 member
    have at_slot := (indexed name slot).2 ⟨n, lies, named⟩
    simp [node?, at_slot, lies]

/-- A node is there if and only if its name is. -/
theorem Indexed.has_iff (indexed : g.Indexed) : g.has name = true ↔ name ∈ g.names := by
  rw [has, OrderedMap.contains, Option.isSome_iff_exists, mem_names]
  constructor
  · intro there
    rcases there with ⟨slot, at_slot⟩
    obtain ⟨n, lies, named⟩ := (indexed name slot).1 at_slot
    exact ⟨n, mem_nodes.2 ⟨slot, lies⟩, named⟩
  · intro there
    rcases there with ⟨n, member, named⟩
    obtain ⟨slot, lies⟩ := mem_nodes.1 member
    exact ⟨slot, (indexed name slot).2 ⟨n, lies, named⟩⟩

/-- The index sends a name to one slot, so what lies elsewhere has another name. -/
theorem Indexed.ne_of_ne {place slot : Nat} (indexed : g.Indexed)
    (at_place : g.index.get? name = some place) (lies : g.slots[slot]? = some (some m))
    (elsewhere : place ≠ slot) : m.name ≠ name := by
  intro also
  have at_slot := (indexed name slot).2 ⟨m, lies, also⟩
  exact elsewhere (Option.some.inj (at_place.symm.trans at_slot))

/-- Names differ, since the index sends a name to one slot only. -/
theorem Indexed.nodup_names (indexed : g.Indexed) : g.names.Nodup := by
  rw [names, nodes, List.Nodup, List.pairwise_map, List.pairwise_filterMap,
    List.pairwise_iff_getElem]
  intro i j hi hj before n first m second same
  have at_i := (indexed n.name i).2 ⟨n, by simpa [List.getElem?_eq_getElem hi] using first, rfl⟩
  have at_j : g.slots[j]? = some (some m) := by
    simpa [List.getElem?_eq_getElem hj] using second
  exact indexed.ne_of_ne at_i at_j (Nat.ne_of_lt before) same.symm

theorem Indexed.eq_of_name (indexed : g.Indexed) (first : n ∈ g.nodes) (second : m ∈ g.nodes)
    (same : n.name = m.name) : n = m :=
  List.inj_on_of_nodup_map indexed.nodup_names first second same

/-- The name of a node stands among those of a selection if and only if the node is selected. -/
theorem Indexed.name_mem_filter_iff (indexed : g.Indexed) (member : n ∈ g.nodes)
    (select : Node → Bool) :
    n.name ∈ (g.nodes.filter select).map Node.name ↔ select n = true := by
  constructor
  · intro listed
    obtain ⟨m, listed, same⟩ := List.mem_map.1 listed
    obtain ⟨also, selected⟩ := List.mem_filter.1 listed
    rwa [← indexed.eq_of_name also member same]
  · intro selected
    exact List.mem_map_of_mem (List.mem_filter.2 ⟨member, selected⟩)

theorem Indexed.nodup_filter (indexed : g.Indexed) (select : Node → Bool) :
    ((g.nodes.filter select).map Node.name).Nodup :=
  indexed.nodup_names.sublist (List.filter_sublist.map _)

theorem Indexed.node?_of_mem (indexed : g.Indexed) (member : n ∈ g.nodes) :
    g.node? n.name = some n :=
  indexed.node?_eq_some_iff.2 ⟨member, rfl⟩

theorem Indexed.has_of_mem (indexed : g.Indexed) (member : n ∈ g.nodes) : g.has n.name = true :=
  indexed.has_iff.2 (List.mem_map_of_mem member)

theorem Indexed.node?_eq_none_iff (indexed : g.Indexed) :
    g.node? name = none ↔ name ∉ g.names := by
  rw [Option.eq_none_iff_forall_ne_some, mem_names]
  simp [indexed.node?_eq_some_iff]

theorem Indexed.tensor?_of_mem (indexed : g.Indexed) (member : n ∈ g.nodes) :
    g.tensor? n.name = n.tensor := by
  rw [tensor?, indexed.node?_of_mem member, Option.bind_some]

theorem Indexed.tensor?_of_not_mem (indexed : g.Indexed) (absent : name ∉ g.names) :
    g.tensor? name = none := by
  rw [tensor?, indexed.node?_eq_none_iff.2 absent, Option.bind_none]

/-! ### Changing all nodes, or the node of one name -/

@[simp] theorem nodes_mapNodes : (g.mapNodes change).nodes = g.nodes.map change := by
  simp [nodes, mapNodes, List.filterMap_map, List.map_filterMap]

theorem mapNodes_mapNodes (later : Node → Node) :
    (g.mapNodes change).mapNodes later = g.mapNodes fun n => later (change n) := by
  simp [mapNodes, Function.comp_def]

theorem mapNodes_congr {other : Node → Node} (agree : ∀ n ∈ g.nodes, change n = other n) :
    g.mapNodes change = g.mapNodes other := by
  have slots_eq : g.slots.map (Option.map change) = g.slots.map (Option.map other) := by
    apply List.map_congr_left
    intro content member
    cases content with
    | none => rfl
    | some n => simpa using agree n (by simpa [nodes] using member)
  simp [mapNodes, slots_eq]

theorem mapNodes_of_forall (fixed : ∀ n ∈ g.nodes, change n = n) : g.mapNodes change = g := by
  have same : g.mapNodes change = g.mapNodes id := mapNodes_congr fixed
  exact same.trans (by simp [mapNodes])

/-- A change that leaves names alone leaves the index right. -/
theorem Indexed.mapNodes (indexed : g.Indexed) (keeps : ∀ n, (change n).name = n.name) :
    (g.mapNodes change).Indexed := by
  intro name slot
  rw [show (g.mapNodes change).index = g.index from rfl, indexed name slot]
  simp [Graph.mapNodes, Option.map_eq_some_iff, keeps]

/-- A change that leaves names alone changes what look-ups find. -/
theorem Indexed.node?_mapNodes (indexed : g.Indexed) (keeps : ∀ n, (change n).name = n.name)
    (name : String) : (g.mapNodes change).node? name = (g.node? name).map change := by
  have indexed' := indexed.mapNodes keeps
  cases found : g.node? name with
  | none =>
      have names_eq : (g.mapNodes change).names = g.names := by
        simp [names, Function.comp_def, keeps]
      rw [Option.map_none, indexed'.node?_eq_none_iff, names_eq]
      exact indexed.node?_eq_none_iff.1 found
  | some n =>
      obtain ⟨member, rfl⟩ := indexed.node?_eq_some_iff.1 found
      rw [Option.map_some, indexed'.node?_eq_some_iff, nodes_mapNodes]
      exact ⟨List.mem_map_of_mem member, keeps n⟩

theorem Indexed.tensor?_mapNodes (indexed : g.Indexed) (keeps : ∀ n, (change n).name = n.name)
    (tensors : ∀ n, (change n).tensor = n.tensor) : (g.mapNodes change).tensor? = g.tensor? := by
  funext name
  rw [tensor?, indexed.node?_mapNodes keeps, tensor?]
  cases g.node? name with
  | none => rfl
  | some n => exact tensors n

/-- To change the node of a name is to change each node that has the name. -/
theorem Indexed.modify_eq (indexed : g.Indexed) :
    g.modify name change = g.mapNodes fun n => if n.name = name then change n else n := by
  cases found : g.index.get? name with
  | none =>
      have absent : name ∉ g.names := by
        rw [← indexed.has_iff]
        simp [has, OrderedMap.contains, found]
      rw [mapNodes_of_forall, modify, found]
      intro n member
      rw [if_neg]
      rintro rfl
      exact absent (mem_names.2 ⟨n, member, rfl⟩)
  | some slot =>
      obtain ⟨n, lies, named⟩ := (indexed name slot).1 found
      have slots_eq : g.slots.modify slot (Option.map change) =
          g.slots.map (Option.map fun n => if n.name = name then change n else n) := by
        apply List.ext_getElem?
        intro i
        rw [List.getElem?_modify, List.getElem?_map]
        by_cases same : slot = i
        · subst same
          simp [lies, named]
        · rcases at_i : g.slots[i]? with _ | _ | m
          · rfl
          · simp
          · simp [same, indexed.ne_of_ne found at_i same]
      simp [modify, found, Graph.mapNodes, slots_eq]

/-- A change that is made at one name after the other is made as often as the name of a node is
listed. -/
theorem Indexed.foldl_modify_eq (indexed : g.Indexed) (change : Node → Node)
    (keeps : ∀ n, (change n).name = n.name) (listed : List String) :
    listed.foldl (fun g name => g.modify name change) g =
      g.mapNodes fun n => change^[listed.count n.name] n := by
  induction listed generalizing g with
  | nil => exact (mapNodes_of_forall fun _ _ => rfl).symm
  | cons name rest ih =>
      -- The first change already is one of all nodes, and the rest sees the names it saw before.
      have keeps' (n : Node) : (if n.name = name then change n else n).name = n.name := by
        split <;> simp [keeps]
      rw [List.foldl_cons, indexed.modify_eq, ih (indexed.mapNodes keeps'), mapNodes_mapNodes]
      apply mapNodes_congr
      intro n _
      by_cases named : n.name = name
      · simp [named, keeps, Function.iterate_succ_apply]
      · simp [named, Ne.symm named]

/-- Names that are listed once each: the change is made once. -/
theorem Indexed.foldl_modify_eq_of_nodup (indexed : g.Indexed) (change : Node → Node)
    (keeps : ∀ n, (change n).name = n.name) {listed : List String} (nodup : listed.Nodup) :
    listed.foldl (fun g name => g.modify name change) g =
      g.mapNodes fun n => if n.name ∈ listed then change n else n := by
  rw [indexed.foldl_modify_eq change keeps]
  apply mapNodes_congr
  intro n _
  by_cases member : n.name ∈ listed
  · simp [member, List.count_eq_one_of_mem nodup member]
  · simp [member, List.count_eq_zero_of_not_mem member]

/-- A change that may be made twice: it does not matter how often a name is listed. -/
theorem Indexed.foldl_modify_eq_of_idem (indexed : g.Indexed) (change : Node → Node)
    (keeps : ∀ n, (change n).name = n.name) (idem : ∀ n, change (change n) = change n)
    (listed : List String) :
    listed.foldl (fun g name => g.modify name change) g =
      g.mapNodes fun n => if n.name ∈ listed then change n else n := by
  have iterate (n : Node) (count : Nat) : change^[count + 1] n = change n := by
    induction count with
    | zero => rfl
    | succ count ih => rw [Function.iterate_succ_apply', ih, idem]
  rw [indexed.foldl_modify_eq change keeps]
  apply mapNodes_congr
  intro n _
  by_cases member : n.name ∈ listed
  · obtain ⟨count, eq⟩ := Nat.exists_eq_add_of_lt (List.count_pos_iff.2 member)
    rw [eq, Nat.zero_add, iterate, if_pos member]
  · simp [member, List.count_eq_zero_of_not_mem member]

/-! ### Putting nodes in and taking them out -/

@[simp] theorem nodes_insert : (g.insert n).nodes = g.nodes ++ [n] := by
  simp [nodes, insert]

/-- What lies in a slot once another slot has been added. -/
theorem getElem?_slots_insert {slot : Nat} :
    (g.insert n).slots[slot]? = some (some m) ↔
      g.slots[slot]? = some (some m) ∨ slot = g.slots.length ∧ m = n := by
  rw [insert]
  rcases Nat.lt_trichotomy slot g.slots.length with before | rfl | behind
  · simp [List.getElem?_append_left before, Nat.ne_of_lt before]
  · simp [eq_comm]
  · have none_old : g.slots[slot]? = none := List.getElem?_eq_none (Nat.le_of_lt behind)
    have none_new : (g.slots ++ [some n])[slot]? = none :=
      List.getElem?_eq_none (by simp; omega)
    simp [none_old, none_new, Nat.ne_of_gt behind]

/-- A node of a new name gets a slot of its own. -/
theorem Indexed.insert (indexed : g.Indexed) (fresh : n.name ∉ g.names) :
    (g.insert n).Indexed := by
  intro name slot
  rw [show (g.insert n).index = g.index.put n.name g.slots.length from rfl]
  simp only [getElem?_slots_insert]
  by_cases named : name = n.name
  · subst named
    have unused : ∀ m, g.slots[slot]? = some (some m) → m.name ≠ n.name := fun m lies same =>
      fresh (mem_names.2 ⟨m, mem_nodes.2 ⟨slot, lies⟩, same⟩)
    rw [OrderedMap.get?_put_self, Option.some.injEq]
    constructor
    · rintro rfl
      exact ⟨n, .inr ⟨rfl, rfl⟩, rfl⟩
    · intro there
      rcases there with ⟨m, lies | ⟨rfl, _⟩, same⟩
      · exact absurd same (unused m lies)
      · rfl
  · rw [OrderedMap.get?_put_of_ne _ _ named, indexed name slot]
    constructor
    · intro there
      rcases there with ⟨m, lies, same⟩
      exact ⟨m, .inl lies, same⟩
    · intro there
      rcases there with ⟨m, lies | ⟨_, rfl⟩, same⟩
      · exact ⟨m, lies, same⟩
      · exact absurd same.symm named

theorem getElem?_slots_vacate {slot place : Nat} :
    (g.vacate name place).slots[slot]? = some (some m) ↔
      slot ≠ place ∧ g.slots[slot]? = some (some m) := by
  by_cases same : place = slot
  · subst same
    by_cases inside : place < g.slots.length <;> simp [vacate, inside]
  · simp [vacate, List.getElem?_set_ne same, Ne.symm same]

/-- A node that is taken out of its slot leaves the index right. -/
theorem Indexed.vacate {place : Nat} (indexed : g.Indexed)
    (at_place : g.index.get? name = some place) : (g.vacate name place).Indexed := by
  intro other slot
  simp only [getElem?_slots_vacate]
  by_cases named : other = name
  · subst named
    simp only [Graph.vacate, OrderedMap.get?_remove_self, reduceCtorEq, false_iff, not_exists]
    intro m there
    rcases there with ⟨⟨elsewhere, lies⟩, same⟩
    exact indexed.ne_of_ne at_place lies elsewhere.symm same
  · rw [Graph.vacate, OrderedMap.get?_remove_of_ne _ named, indexed other slot]
    constructor
    · intro there
      rcases there with ⟨m, lies, same⟩
      refine ⟨m, ⟨?_, lies⟩, same⟩
      rintro rfl
      obtain ⟨n, lies', named'⟩ := (indexed name slot).1 at_place
      obtain rfl : m = n := by simpa [lies] using lies'
      exact named (same.symm.trans named')
    · intro there
      rcases there with ⟨m, ⟨_, lies⟩, same⟩
      exact ⟨m, lies, same⟩

theorem Indexed.nodes_vacate {place : Nat} (indexed : g.Indexed)
    (at_place : g.index.get? name = some place) :
    (g.vacate name place).nodes = g.nodes.filter (·.name ≠ name) := by
  have slots_eq : (g.vacate name place).slots =
      g.slots.map (Option.filter fun n => n.name ≠ name) := by
    apply List.ext_getElem?
    intro slot
    obtain ⟨n, lies, named⟩ := (indexed name place).1 at_place
    rw [List.getElem?_map]
    by_cases same : place = slot
    · subst same
      have inside : place < g.slots.length := (List.getElem?_eq_some_iff.1 lies).1
      rw [lies, Graph.vacate, List.getElem?_set_self inside]
      simp [Option.filter, named]
    · rw [Graph.vacate, List.getElem?_set_ne same]
      rcases at_slot : g.slots[slot]? with _ | _ | m
      · rfl
      · rfl
      · simp [Option.filter, indexed.ne_of_ne at_place at_slot same]
  rw [nodes, slots_eq, nodes, List.filterMap_map, List.filter_filterMap]
  rfl

@[simp] theorem nodes_pack : g.pack.nodes = g.nodes := by
  simp [pack, nodes]

/-- Packed slots are indexed by place. -/
theorem Indexed.pack (indexed : g.Indexed) : g.pack.Indexed := by
  have names_eq : g.nodes.zipIdx.map (fun entry => entry.1.name) = g.names := by
    rw [names]
    conv_rhs => rw [← List.zipIdx_map_fst 0 g.nodes, List.map_map]
    rfl
  intro name slot
  simp only [Graph.pack]
  rw [OrderedMap.get?_ofEntries]
  · simp only [List.mem_map, Prod.mk.injEq, Prod.exists, List.mem_zipIdx_iff_getElem?]
    constructor
    · intro listed
      rcases listed with ⟨n, place, lies, named, rfl⟩
      exact ⟨n, by simp [lies], named⟩
    · intro there
      rcases there with ⟨n, lies, named⟩
      exact ⟨n, slot, by simpa using lies, named, rfl⟩
  · rw [Entries.keys, List.map_map]
    change (g.nodes.zipIdx.map fun entry => entry.1.name).Nodup
    rw [names_eq]
    exact indexed.nodup_names

theorem nodes_packIfSparse : g.packIfSparse.nodes = g.nodes := by
  rw [packIfSparse]
  split
  · exact nodes_pack
  · rfl

theorem Indexed.packIfSparse (indexed : g.Indexed) : g.packIfSparse.Indexed := by
  rw [Graph.packIfSparse]
  split
  · exact indexed.pack
  · exact indexed

end TensorGraph.Graph
