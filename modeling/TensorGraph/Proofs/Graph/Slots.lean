import TensorGraph.Proofs.Graph.Reached

/-!
Vacant slots. A removal leaves a slot vacant and counts it; the count is what decides when the slots
are packed. It is right at every moment, and so there are never more vacant slots than nodes.
Copies, restrictions and unions start from no slots at all, so they have none that are vacant.
-/

namespace TensorGraph.Graph

variable {g base : Graph} {n : Node} {name : String} {change : Node → Node} {ns : List Node}

/-- The vacant slots are counted, and there are at most as many as there are nodes. -/
structure Accounted (g : Graph) : Prop where
  vacant_eq : g.vacant = g.slots.countP Option.isNone
  vacant_le : g.vacant ≤ g.nodes.length

/-- A slot holds a node or is vacant. -/
theorem length_slots : g.slots.length = g.nodes.length + g.slots.countP Option.isNone := by
  rw [nodes, List.length_filterMap_eq_countP, List.length_eq_countP_add_countP Option.isSome]
  congr 1
  exact List.countP_congr fun content _ => by cases content <;> simp

/-- Names stand in the index as often as in the nodes: once each. -/
theorem Indexed.nodeCount_eq (indexed : g.Indexed) : g.nodeCount = g.nodes.length := by
  have same : g.index.keys.Perm g.names := by
    refine (List.perm_ext_iff_of_nodup g.index.nodup indexed.nodup_names).2 fun name => ?_
    rw [← indexed.has_iff]
    exact g.index.mem_keys_iff
  have lengths := same.length_eq
  rwa [names, List.length_map, OrderedMap.keys, Entries.keys, List.length_map] at lengths

/-! ### One node -/

/-- Packed slots hold nodes only. -/
theorem accounted_of_packed (ns : List Node) (slots : g.slots = ns.map some)
    (vacant : g.vacant = 0) : g.Accounted where
  vacant_eq := by
    rw [vacant, slots, eq_comm, List.countP_eq_zero]
    simp
  vacant_le := by
    rw [vacant]
    exact Nat.zero_le _

theorem Accounted.insert (accounted : g.Accounted) : (g.insert n).Accounted where
  vacant_eq := by
    rw [Graph.insert, List.countP_append]
    simpa using accounted.vacant_eq
  vacant_le := by
    rw [nodes_insert, List.length_append]
    exact Nat.le_add_right_of_le accounted.vacant_le

theorem Accounted.mapNodes (accounted : g.Accounted) : (g.mapNodes change).Accounted where
  vacant_eq := by
    rw [Graph.mapNodes, List.countP_map]
    refine accounted.vacant_eq.trans (List.countP_congr fun content _ => ?_)
    cases content <;> simp
  vacant_le := by
    rw [nodes_mapNodes, List.length_map]
    exact accounted.vacant_le

theorem Accounted.register (accounted : g.Accounted) : (g.register n).Accounted := by
  rw [Graph.register]
  split <;> exact ⟨accounted.vacant_eq, accounted.vacant_le⟩

theorem Accounted.modify (accounted : g.Accounted) (indexed : g.Indexed) :
    (g.modify name change).Accounted := by
  rw [indexed.modify_eq]
  exact accounted.mapNodes

theorem Accounted.add {g' : Graph} (accounted : g.Accounted) (indexed : g.Indexed)
    (added : g.add n = .ok g') : g'.Accounted := by
  rw [indexed.add_eq (indexed.fresh_of_add added), Except.ok.injEq] at added
  rw [← added]
  exact accounted.insert.mapNodes.register

/-- Packing comes as soon as more slots are vacant than not. -/
theorem Indexed.accounted_packIfSparse (indexed : g.Indexed)
    (counted : g.vacant = g.slots.countP Option.isNone) : g.packIfSparse.Accounted := by
  rw [Graph.packIfSparse]
  split
  · exact accounted_of_packed _ rfl rfl
  · next dense =>
    refine ⟨counted, ?_⟩
    rw [← indexed.nodeCount_eq]
    exact Nat.le_of_not_lt dense

theorem Accounted.remove (accounted : g.Accounted) (indexed : g.Indexed) (name : String) :
    (g.remove name).Accounted := by
  by_cases present : name ∈ g.names
  · obtain ⟨n, member, rfl⟩ := mem_names.1 present
    obtain ⟨slot, at_slot, removed⟩ := indexed.remove_eq member
    rw [removed]
    have dropped_indexed : (g.dropped n slot).Indexed :=
      (indexed.vacate at_slot).mapNodes fun _ => rfl
    refine dropped_indexed.accounted_packIfSparse ?_
    obtain ⟨m, lies, _⟩ := (indexed n.name slot).1 at_slot
    obtain ⟨inside, content⟩ := List.getElem?_eq_some_iff.1 lies
    have one_more : (g.slots.set slot none).countP Option.isNone =
        g.slots.countP Option.isNone + 1 := by
      rw [List.countP_set inside, content]
      rfl
    calc (g.dropped n slot).vacant = g.slots.countP Option.isNone + 1 :=
          congrArg (· + 1) accounted.vacant_eq
      _ = (g.vacate n.name slot).slots.countP Option.isNone := one_more.symm
      _ = (g.dropped n slot).slots.countP Option.isNone := by
          rw [dropped, Graph.mapNodes, List.countP_map]
          refine List.countP_congr fun content _ => ?_
          cases content <;> simp
  · rwa [indexed.remove_of_not_mem present]

/-! ### Many nodes -/

/-- Nodes that are put in one after the other lie in slots of their own, behind those that are
there; nothing else changes but the index. -/
theorem foldl_insert_eq : ns.foldl insert base =
    { base with
      slots := base.slots ++ ns.map some
      index := (ns.foldl insert base).index } := by
  induction ns generalizing base with
  | nil => simp
  | cons n ns ih =>
      rw [List.foldl_cons, ih]
      simp [insert]

/-- A copy has the nodes in packed slots. -/
theorem clone_eq : g.clone =
    { g with slots := g.nodes.map some, index := g.clone.index, vacant := 0 } := by
  rw [clone, foldl_insert_eq]
  rfl

theorem nodes_clone : g.clone.nodes = g.nodes := by
  rw [clone_eq]
  simp [nodes]

/-- A union that takes in nodes puts them in. -/
theorem eq_foldl_insert_of_absorb {other : Value} {union : Graph}
    (absorbed : ns.foldlM (absorb other) base = .ok union) : union = ns.foldl insert base := by
  induction ns generalizing base with
  | nil => simpa using absorbed.symm
  | cons n ns ih =>
      obtain ⟨next, step, absorbed⟩ := bind_eq_ok_iff.1 absorbed
      rw [absorb] at step
      split at step
      · cases step
      · cases step
        exact ih absorbed

/-- A union has the nodes of both graphs in packed slots, the second ones under their new names. -/
theorem union_eq {other union : Graph} {stem : Option String}
    (merged : g.merge other stem = .ok union) : union =
    { g with
      slots := (g.nodes ++ other.nodes.map (renamedNode stem)).map some
      index := union.index
      vacant := 0
      inputs := g.inputs ++ other.inputs.map (renamed stem)
      outputs := g.outputs ++ other.outputs.map (renamed stem) } := by
  obtain ⟨whole, absorbed, named⟩ := bind_eq_ok_iff.1 merged
  cases named
  rw [eq_foldl_insert_of_absorb absorbed, foldl_insert_eq, clone_eq]
  simp

theorem nodes_union {other union : Graph} {stem : Option String}
    (merged : g.merge other stem = .ok union) :
    union.nodes = g.nodes ++ other.nodes.map (renamedNode stem) := by
  rw [union_eq merged]
  simp [nodes]

theorem accounted_clone : g.clone.Accounted := by
  rw [clone_eq]
  exact accounted_of_packed _ rfl rfl

theorem accounted_union {other union : Graph} {stem : Option String}
    (merged : g.merge other stem = .ok union) : union.Accounted := by
  rw [union_eq merged]
  exact accounted_of_packed _ rfl rfl

end TensorGraph.Graph
