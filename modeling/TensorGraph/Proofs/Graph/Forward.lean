import TensorGraph.Proofs.Graph.Sorting
import TensorGraph.Proofs.Graph.Successors

/-!
Nodes that stand in a forward order: each behind its predecessors. In such an order the successors
of a node are all nodes that take an input from it, and there is no cycle. The nodes of a graph
whose order is the sorted one stand so.
-/

namespace TensorGraph.Graph

variable {g : Graph} {n m : Node} {name : String} {ns : List Node}

/-- No node takes an input from itself or from a node behind it. -/
def Forward : List Node → Prop
  | [] => True
  | n :: rest => (∀ m ∈ n :: rest, m.name ∉ n.inputs) ∧ Forward rest

@[simp] theorem forward_nil : Forward [] := trivial

theorem forward_cons :
    Forward (n :: ns) ↔ (∀ m ∈ n :: ns, m.name ∉ n.inputs) ∧ Forward ns := Iff.rfl

/-- Where names differ, an order is forward if and only if positions grow along all edges. -/
theorem forward_iff_idxOf_lt (nodup : (ns.map Node.name).Nodup) :
    Forward ns ↔ ∀ n ∈ ns, ∀ m ∈ ns, m.name ∈ n.inputs →
      (ns.map Node.name).idxOf m.name < (ns.map Node.name).idxOf n.name := by
  induction ns with
  | nil => simp
  | cons first rest ih =>
      rw [List.map_cons, List.nodup_cons] at nodup
      have later {m : Node} (member : m ∈ rest) : (first.name :: rest.map Node.name).idxOf m.name =
          (rest.map Node.name).idxOf m.name + 1 := by
        refine List.idxOf_cons_ne _ fun same => nodup.1 ?_
        rw [same]
        exact List.mem_map_of_mem member
      rw [forward_cons, ih nodup.2, List.map_cons]
      constructor
      · intro forward n member m member' takes
        rcases forward with ⟨ahead, grows⟩
        rcases List.mem_cons.1 member with rfl | behind
        · exact absurd takes (ahead m member')
        · rw [later behind]
          rcases List.mem_cons.1 member' with rfl | behind'
          · rw [List.idxOf_cons_self]
            exact Nat.succ_pos _
          · rw [later behind']
            exact Nat.succ_lt_succ (grows n behind m behind' takes)
      · intro grows
        refine ⟨fun m member takes => ?_, fun n behind m behind' takes => ?_⟩
        · have before := grows first List.mem_cons_self m member takes
          rw [List.idxOf_cons_self] at before
          exact Nat.not_lt_zero _ before
        · have before := grows n (List.mem_cons_of_mem _ behind) m (List.mem_cons_of_mem _ behind')
            takes
          rw [later behind, later behind'] at before
          exact Nat.lt_of_succ_lt_succ before

/-- In a forward order the successors of a node are all nodes that take an input from it. -/
theorem Linked.outputs_eq (linked : Linked ns) (forward : Forward ns) (member : m ∈ ns) :
    m.outputs = takers m.name ns := by
  induction ns with
  | nil => cases member
  | cons first rest ih =>
      rcases List.mem_cons.1 member with rfl | behind
      · exact linked.1
      · have skips : m.name ∉ first.inputs := forward.1 m member
        rw [ih linked.2 forward.2 behind, takers, takers,
          List.filter_cons_of_neg (by simpa using skips)]

/-- One more node, from which no other node takes an input. -/
theorem Forward.append (forward : Forward ns) (unused : ∀ m ∈ ns, n.name ∉ m.inputs)
    (self : n.name ∉ n.inputs) : Forward (ns ++ [n]) := by
  induction ns with
  | nil => simpa [forward_cons] using self
  | cons first rest ih =>
      have behind := ih forward.2 fun m later => unused m (List.mem_cons_of_mem _ later)
      refine ⟨fun m member => ?_, behind⟩
      rcases List.mem_append.1 (show m ∈ (first :: rest) ++ [n] from member) with earlier | last
      · exact forward.1 m earlier
      · rw [List.mem_singleton.1 last]
        exact unused first List.mem_cons_self

/-- Whatever keeps names and inputs keeps a forward order. -/
theorem forward_map {change : Node → Node} (names : ∀ n, (change n).name = n.name)
    (inputs : ∀ n, (change n).inputs = n.inputs) : Forward (ns.map change) ↔ Forward ns := by
  induction ns with
  | nil => rfl
  | cons first rest ih => simp [forward_cons, names, inputs, ih]

/-- In a forward order positions grow along all edges. -/
theorem Indexed.idxOf_lt_of_forward (indexed : g.Indexed) (forward : Forward g.nodes)
    {before behind : String} (precedes : g.Precedes before behind) :
    g.names.idxOf before < g.names.idxOf behind := by
  rw [forward_iff_idxOf_lt indexed.nodup_names] at forward
  rcases precedes with ⟨has, n, found, takes⟩
  obtain ⟨member, rfl⟩ := indexed.node?_eq_some_iff.1 found
  obtain ⟨m, member', rfl⟩ := mem_names.1 (indexed.has_iff.1 has)
  exact forward n member m member' takes

/-- A graph whose nodes stand in a forward order has no cycle. -/
theorem Indexed.acyclic_of_forward (indexed : g.Indexed) (forward : Forward g.nodes) :
    g.Acyclic :=
  acyclic_of_rank g.names.idxOf fun _ _ => indexed.idxOf_lt_of_forward forward

/-- Nodes that stand in sorted order stand in a forward order. -/
theorem Indexed.forward_of_placement (indexed : g.Indexed) (placed : g.placement = g.names) :
    Forward g.nodes := by
  apply (forward_iff_idxOf_lt indexed.nodup_names).2
  intro n member m member' takes
  have precedes : g.Precedes m.name n.name :=
    ⟨indexed.has_of_mem member', n, indexed.node?_of_mem member, takes⟩
  have before := indexed.idxOf_lt precedes (placed ▸ indexed.mem_names_of_precedes precedes)
  rwa [placed] at before

end TensorGraph.Graph
