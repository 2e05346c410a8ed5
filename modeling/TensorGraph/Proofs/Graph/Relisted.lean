import TensorGraph.Proofs.Graph.SameNodes
import TensorGraph.Proofs.Graph.Sorting

/-!
Sorting a graph whose nodes already stand in sorted order. The order depends on the places of the
nodes, since nodes that wait for nothing more join the queue in the order in which they stand. Once
the nodes stand as the queue has served them, it serves them so again: at every step those that
join form a part of the old order, and picking the same names out of the old order gives that part
back.
-/

namespace TensorGraph.Graph

variable {g g' : Graph} {n m : Node} {name : String} {done ready rest order : List String}

/-- The members of a part stand in the order of the whole if and only if picking them out of the
whole gives the part. -/
theorem filter_mem_eq_iff {part whole : List String} (nodup : whole.Nodup) :
    whole.filter (· ∈ part) = part ↔ part.Sublist whole := by
  constructor
  · intro picked
    rw [← picked]
    exact List.filter_sublist
  · intro sublist
    have whole_part : part.filter (· ∈ part) = part := List.filter_eq_self.2 (by simp)
    have inside : part.Sublist (whole.filter (· ∈ part)) := by
      have kept := sublist.filter (· ∈ part)
      rwa [whole_part] at kept
    have members : whole.filter (· ∈ part) ⊆ part := by
      intro a picked
      simpa using (List.mem_filter.1 picked).2
    have short := (List.subperm_of_subset (nodup.filter _) members).length_le
    exact (inside.eq_of_length_le short).symm

/-- A graph has the nodes of another one, as far as names and inputs go, in a given order. -/
def Relists (g' g : Graph) (order : List String) : Prop :=
  List.Forall₂ SameEdges (g.existing order) g'.nodes

/-! ### Nodes in a given order -/

theorem Indexed.map_name_existing (indexed : g.Indexed) (inside : order ⊆ g.names) :
    (g.existing order).map Node.name = order := by
  induction order with
  | nil => rfl
  | cons first rest ih =>
      obtain ⟨n, member, rfl⟩ := mem_names.1 (inside List.mem_cons_self)
      have rest_inside : rest ⊆ g.names := fun _ later => inside (List.mem_cons_of_mem _ later)
      rw [existing, List.filterMap_cons_some (indexed.node?_of_mem member), List.map_cons]
      exact congrArg _ (ih rest_inside)

/-- Nodes that are there are found under their names. -/
theorem Indexed.existing_map_name (indexed : g.Indexed) {ns : List Node}
    (inside : ∀ n ∈ ns, n ∈ g.nodes) : g.existing (ns.map Node.name) = ns := by
  rw [existing, List.filterMap_map]
  conv_rhs => rw [← List.filterMap_some (l := ns)]
  exact List.filterMap_congr fun n listed => indexed.node?_of_mem (inside n listed)

/-- All nodes, in the order in which they lie. -/
theorem Indexed.existing_names (indexed : g.Indexed) : g.existing g.names = g.nodes :=
  indexed.existing_map_name fun _ member => member

theorem Indexed.mem_existing_iff (indexed : g.Indexed) :
    n ∈ g.existing order ↔ n ∈ g.nodes ∧ n.name ∈ order := by
  simp only [existing, List.mem_filterMap, indexed.node?_eq_some_iff]
  constructor
  · intro found
    rcases found with ⟨_, listed, member, rfl⟩
    exact ⟨member, listed⟩
  · intro both
    rcases both with ⟨member, listed⟩
    exact ⟨_, listed, member, rfl⟩

/-- Nodes that are selected, in a given order, are the part of the order that they name. -/
theorem Indexed.map_filter_existing (indexed : g.Indexed) (inside : order ⊆ g.names)
    (select : Node → Bool) : ((g.existing order).filter select).map Node.name =
      order.filter (· ∈ (g.nodes.filter select).map Node.name) := by
  conv_rhs => rw [← indexed.map_name_existing inside]
  rw [List.filter_map]
  refine congrArg _ (List.filter_congr fun n listed => ?_)
  have member := (indexed.mem_existing_iff.1 listed).1
  rw [Bool.eq_iff_iff, Function.comp_apply, decide_eq_true_eq, indexed.name_mem_filter_iff member]

/-! ### The queue on nodes in its own order -/

theorem Relists.names_eq (relists : g'.Relists g order) (indexed : g.Indexed)
    (inside : order ⊆ g.names) : g'.names = order := by
  rw [names, map_of_forall₂ relists fun _ _ _ _ same => same.name_eq]
  exact indexed.map_name_existing inside

section Steps

variable (relists : g'.Relists g order) (indexed : g.Indexed) (indexed' : g'.Indexed)
  (complete : order.Perm g.names)

include relists indexed indexed' complete

theorem Relists.has_eq (name : String) : g'.has name = g.has name := by
  rw [Bool.eq_iff_iff, indexed.has_iff, indexed'.has_iff, relists.names_eq indexed complete.subset,
    complete.mem_iff]

theorem Relists.waitsFor_eq (same : SameEdges n m) (done : List String) :
    g'.waitsFor done m = g.waitsFor done n := by
  simp only [waitsFor, same.inputs_eq, relists.has_eq indexed indexed' complete]

theorem Relists.sources_eq : g'.sources = order.filter (· ∈ g.sources) := by
  rw [sources, sources, ← indexed.map_filter_existing complete.subset]
  apply map_filter_of_forall₂ relists (fun _ _ same => same.name_eq)
  intro n m same
  rw [relists.waitsFor_eq indexed indexed' complete same]

theorem Relists.freed_eq (done : List String) (name : String) :
    g'.freed done name = order.filter (· ∈ g.freed done name) := by
  rw [freed, freed, ← indexed.map_filter_existing complete.subset]
  apply map_filter_of_forall₂ relists (fun _ _ same => same.name_eq)
  intro n m same
  simp only [relists.waitsFor_eq indexed indexed' complete same]

/-- Where the queue has served the nodes in the order in which they now stand, it does so again. -/
theorem Relists.serves (serves : g.Serves done ready rest) (whole : done ++ rest = order) :
    g'.Serves done ready rest := by
  induction serves with
  | idle => exact .idle _
  | @serve done ready rest name next ih =>
      have nodup : order.Nodup := complete.nodup_iff.2 indexed.nodup_names
      -- What joins the queue is served in the order in which it joined.
      have joined : (g.freed done name).Sublist order := by
        have behind := (List.sublist_append_right ready _).trans next.ready_prefix.sublist
        rw [← whole]
        exact behind.trans
          ((List.sublist_cons_self name rest).trans (List.sublist_append_right done _))
      refine .serve ?_
      rw [relists.freed_eq indexed indexed' complete, (filter_mem_eq_iff nodup).2 joined]
      exact ih (by simpa using whole)

end Steps

/-- **Sorting is stable.** Where a graph has the nodes of an acyclic one in sorted order, it is
sorted in that order. -/
theorem Relists.sorted_eq (relists : g'.Relists g g.placement) (indexed : g.Indexed)
    (indexed' : g'.Indexed) (acyclic : g.Acyclic) : g'.sorted = .ok g.placement := by
  have complete := acyclic.placement_perm indexed
  have first : g'.sources = g.sources := by
    have ready := indexed.serves_placement.ready_prefix.sublist
    rw [relists.sources_eq indexed indexed' complete]
    exact (filter_mem_eq_iff indexed.nodup_placement).2 ready
  have again : g'.placement = g.placement := by
    rw [indexed'.placement_eq_iff, first]
    exact relists.serves indexed indexed' complete indexed.serves_placement rfl
  have long : ¬ g.placement.length < g'.nodes.length := by
    have names_eq := congrArg List.length (relists.names_eq indexed complete.subset)
    rw [names, List.length_map] at names_eq
    omega
  rw [sorted, again, if_neg long]

end TensorGraph.Graph
