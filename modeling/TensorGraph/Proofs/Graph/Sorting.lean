import Mathlib.Data.Set.Finite.List
import Mathlib.Order.WellFoundedSet
import TensorGraph.Proofs.Graph.Reached
import TensorGraph.Proofs.Graph.Schedule

/-!
Sorting succeeds on acyclic graphs and on no others. The queue never stops early: a node that it
does not reach waits for another such node, and in a finite graph that goes on until a node waits
for itself. The other way round, positions in an order that the queue has made grow along every
edge, so no walk along edges comes back.
-/

namespace TensorGraph.Graph

open Relation

variable {g : Graph} {n : Node} {name : String} {order : List String}

/-- One node takes an input from another one, both of them nodes of the graph. -/
def Precedes (g : Graph) (before behind : String) : Prop :=
  g.has before = true ∧ ∃ n, g.node? behind = some n ∧ before ∈ n.inputs

/-- No node depends on itself, directly or through others. -/
def Acyclic (g : Graph) : Prop := ∀ name, ¬ TransGen g.Precedes name name

theorem Indexed.mem_names_of_precedes (indexed : g.Indexed) {before behind : String}
    (precedes : g.Precedes before behind) : behind ∈ g.names := by
  obtain ⟨_, n, found, _⟩ := precedes
  exact mem_names.2 ⟨n, indexed.node?_eq_some_iff.1 found⟩

/-! ### What the queue leaves out -/

theorem Indexed.stage_placement (indexed : g.Indexed) : g.Stage g.placement [] := by
  simpa using indexed.serves_placement.stage indexed indexed.stage_sources

theorem Indexed.nodup_placement (indexed : g.Indexed) : g.placement.Nodup := by
  simpa using indexed.stage_placement.nodup

theorem Indexed.placement_subset (indexed : g.Indexed) : g.placement ⊆ g.names :=
  fun name member => indexed.stage_placement.known name (by simpa using member)

/-- A node is placed if and only if all its predecessors are. -/
theorem Indexed.mem_placement_iff (indexed : g.Indexed) (present : name ∈ g.names) :
    name ∈ g.placement ↔ ∀ before, g.Precedes before name → before ∈ g.placement := by
  obtain ⟨n, member, rfl⟩ := mem_names.1 present
  have settled := indexed.stage_placement.mem_iff n member
  rw [List.append_nil, waitsFor_eq_zero_iff] at settled
  rw [settled]
  constructor
  · intro waits before precedes
    rcases precedes with ⟨has, m, found, takes⟩
    obtain rfl : n = m := by simpa [indexed.node?_of_mem member] using found
    exact waits before takes has
  · intro all p takes has
    exact all p ⟨has, n, indexed.node?_of_mem member, takes⟩

/-- A predecessor of a node that is placed stands before it. -/
theorem Indexed.idxOf_lt (indexed : g.Indexed) {before behind : String}
    (precedes : g.Precedes before behind) (placed : behind ∈ g.placement) :
    g.placement.idxOf before < g.placement.idxOf behind := by
  obtain ⟨has, n, found, takes⟩ := precedes
  obtain ⟨member, rfl⟩ := indexed.node?_eq_some_iff.1 found
  -- All that the node waits for was placed by then, so it stands in the part before the node.
  obtain ⟨front, back, split⟩ := List.append_of_mem placed
  have waits := indexed.serves_placement.waitsFor_eq_zero indexed indexed.stage_sources member split
  rw [List.nil_append, waitsFor_eq_zero_iff] at waits
  have ahead : before ∈ front := waits before takes has
  have apart : n.name ∉ front := by
    have nodup := indexed.nodup_placement
    rw [split] at nodup
    exact fun also => (List.nodup_append.1 nodup).2.2 _ also _ List.mem_cons_self rfl
  rw [split, List.idxOf_append_of_mem ahead, List.idxOf_append_of_notMem apart]
  exact Nat.lt_of_lt_of_le (List.idxOf_lt_length_of_mem ahead) (Nat.le_add_right _ _)

/-- Where there is no cycle, dependence is well founded on the nodes, which are finitely many. -/
theorem Acyclic.wellFoundedOn (acyclic : g.Acyclic) :
    Set.WellFoundedOn {name | name ∈ g.names} (TransGen g.Precedes) := by
  have : IsStrictOrder String (TransGen g.Precedes) :=
    { irrefl := acyclic, trans := fun _ _ _ one two => one.trans two }
  exact (List.finite_toSet g.names).wellFoundedOn

/-- Where there is no cycle, every node is placed. -/
theorem Acyclic.mem_placement (acyclic : g.Acyclic) (indexed : g.Indexed)
    (present : name ∈ g.names) : name ∈ g.placement := by
  refine acyclic.wellFoundedOn.induction present ?_
  intro behind present ih
  rw [indexed.mem_placement_iff present]
  intro before precedes
  exact ih before (indexed.has_iff.1 precedes.1) (.single precedes)

/-- There is no cycle where a number grows along every edge, and so along every walk. -/
theorem acyclic_of_rank (rank : String → Nat)
    (grows : ∀ before behind, g.Precedes before behind → rank before < rank behind) :
    g.Acyclic := by
  have climbs {before behind : String} (walk : TransGen g.Precedes before behind) :
      rank before < rank behind := by
    induction walk with
    | single precedes => exact grows _ _ precedes
    | tail _ precedes ih => exact ih.trans (grows _ _ precedes)
  exact fun name cycle => Nat.lt_irrefl _ (climbs cycle)

/-- Where every node is placed, there is no cycle. -/
theorem Indexed.acyclic_of_complete (indexed : g.Indexed) (complete : g.names ⊆ g.placement) :
    g.Acyclic :=
  acyclic_of_rank g.placement.idxOf fun _ _ precedes =>
    indexed.idxOf_lt precedes (complete (indexed.mem_names_of_precedes precedes))

/-! ### Sorting -/

/-- The program compares lengths; that tells whether every node is placed. -/
theorem Indexed.length_placement_lt_iff (indexed : g.Indexed) :
    g.placement.length < g.nodes.length ↔ ¬ g.Acyclic := by
  have length_eq : g.nodes.length = g.names.length := (List.length_map _).symm
  constructor
  · intro shorter acyclic
    have all : g.names ⊆ g.placement := fun _ present => acyclic.mem_placement indexed present
    have := (List.subperm_of_subset indexed.nodup_names all).length_le
    omega
  · intro cyclic
    by_contra! longer
    refine cyclic (indexed.acyclic_of_complete ?_)
    have subperm := List.subperm_of_subset indexed.nodup_placement indexed.placement_subset
    exact (subperm.perm_of_length_le (by omega)).symm.subset

theorem Indexed.sorted_eq (indexed : g.Indexed) (acyclic : g.Acyclic) :
    g.sorted = .ok g.placement := by
  rw [sorted, if_neg]
  rw [indexed.length_placement_lt_iff]
  exact not_not_intro acyclic

theorem Indexed.sorted_eq_error (indexed : g.Indexed) (cyclic : ¬ g.Acyclic) :
    g.sorted = .error (.graph (.cyclic g.name)) := by
  rw [sorted, if_pos (indexed.length_placement_lt_iff.2 cyclic)]

/-- What sorting answers is the order in which nodes are placed, and then there is no cycle. -/
theorem Indexed.sorted_eq_ok_iff (indexed : g.Indexed) :
    g.sorted = .ok order ↔ g.Acyclic ∧ g.placement = order := by
  by_cases acyclic : g.Acyclic
  · simp [indexed.sorted_eq acyclic, acyclic]
  · simp [indexed.sorted_eq_error acyclic, acyclic]

theorem Indexed.hasCycle_iff (indexed : g.Indexed) : g.hasCycle = true ↔ ¬ g.Acyclic := by
  rw [hasCycle, decide_eq_true_eq, indexed.length_placement_lt_iff]

/-- Where there is no cycle, the order lists every node once. -/
theorem Acyclic.placement_perm (acyclic : g.Acyclic) (indexed : g.Indexed) :
    g.placement.Perm g.names :=
  (List.perm_ext_iff_of_nodup indexed.nodup_placement indexed.nodup_names).2 fun _ =>
    ⟨fun placed => indexed.placement_subset placed, acyclic.mem_placement indexed⟩

/-- **Sorting.** In every graph, whatever its history and the inputs of its nodes are, sorting
answers an order if and only if no node depends on itself, and else reports the cycle; the order
lists every node once and each node behind all its predecessors. The test for cycles answers yes
in just the cases where sorting fails. -/
theorem sorted_iff_acyclic (reached : g.Reached) :
    ((∃ order, g.sorted = .ok order) ↔ g.Acyclic) ∧
      (g.sorted = .error (.graph (.cyclic g.name)) ↔ ¬ g.Acyclic) ∧
      (∀ order, g.sorted = .ok order → order.Nodup ∧ (∀ name, name ∈ order ↔ g.has name = true) ∧
        ∀ before behind, g.Precedes before behind → order.idxOf before < order.idxOf behind) ∧
      (g.hasCycle = true ↔ ∃ e, g.sorted = .error e) := by
  have indexed := reached.indexed
  rw [indexed.hasCycle_iff]
  by_cases acyclic : g.Acyclic
  · rw [indexed.sorted_eq acyclic]
    refine ⟨by simpa using acyclic, by simpa using acyclic, ?_, by simpa using acyclic⟩
    rintro order ⟨rfl⟩
    refine ⟨indexed.nodup_placement, fun name => ?_, fun before behind precedes => ?_⟩
    · rw [(acyclic.placement_perm indexed).mem_iff, indexed.has_iff]
    · have present := indexed.mem_names_of_precedes precedes
      exact indexed.idxOf_lt precedes (acyclic.mem_placement indexed present)
  · rw [indexed.sorted_eq_error acyclic]
    simpa using acyclic

/-- A graph with a node that takes one input twice, before that input is there, and one from a
node that is missing; another node has come and gone. -/
def lateInput : Except Error Graph := do
  let g ← (empty (.text "late")).add { name := "x", kind := .input }
  let g ← (g.remove "x").add { name := "b", kind := .op, inputs := ["a", "a", "z"] }
  g.add { name := "a", kind := .const }

theorem sorted_lateInput : ∃ g, lateInput = .ok g ∧ g.Reached ∧ g.sorted = .ok ["a", "b"] ∧
    g.Acyclic ∧ ["a", "b"].idxOf "a" < ["a", "b"].idxOf "b" := by
  obtain ⟨g, made⟩ : ∃ g, lateInput = .ok g := ⟨_, rfl⟩
  have reached : g.Reached := by
    obtain ⟨first, one, made'⟩ := bind_eq_ok_iff.1 made
    obtain ⟨second, two, three⟩ := bind_eq_ok_iff.1 made'
    exact .add (.add (.remove (.add (.empty _) one) "x") two) three
  have order : g.sorted = .ok ["a", "b"] := by
    cases made
    rfl
  have edge : g.Precedes "a" "b" := by
    cases made
    exact ⟨rfl, _, rfl, by simp⟩
  have sorting := sorted_iff_acyclic reached
  exact ⟨g, made, reached, order, sorting.1.1 ⟨_, order⟩, (sorting.2.2.1 _ order).2.2 _ _ edge⟩

end TensorGraph.Graph
