import TensorGraph.Graph.Walk
import TensorGraph.Proofs.Graph.Sorting

/-!
What a walk finds. A search takes names off a stack and goes deep first; what it does with each of
them is a relation without fuel, and the program follows that relation because every name that it
ever takes off stands on an edge of some node, and the edges of a node are put on once. In the end
all edges out of what was found lead to what was found, so a walk finds the nodes that can be
reached and no others.
-/

namespace TensorGraph.Graph

open Relation

variable {g : Graph} {n : Node} {edges : Node → List String} {name other : String}
  {seen stack found : List String}

/-- An edge of the first node leads to the second, both of them nodes of the graph. -/
def Leads (g : Graph) (edges : Node → List String) (source target : String) : Prop :=
  g.has target = true ∧ ∃ n, g.node? source = some n ∧ target ∈ edges n

/-- Where some names have been seen and others stand on the stack, the search finds these nodes, in
this order. Only a node that is new is entered, and then its edges come first. -/
inductive Explores (g : Graph) (edges : Node → List String) :
    List String → List String → List String → Prop where
  | finish (seen : List String) : Explores g edges seen [] []
  | skip {seen stack found : List String} {name : String} (known : name ∈ seen)
      (next : Explores g edges seen stack found) : Explores g edges seen (name :: stack) found
  | miss {seen stack found : List String} {name : String} (new : name ∉ seen)
      (absent : g.node? name = none) (next : Explores g edges (name :: seen) stack found) :
      Explores g edges seen (name :: stack) found
  | enter {seen stack found : List String} {name : String} {n : Node} (new : name ∉ seen)
      (at_name : g.node? name = some n)
      (next : Explores g edges (name :: seen) (edges n ++ stack) found) :
      Explores g edges seen (name :: stack) (name :: found)

/-! ### Fuel -/

/-- How many edges the nodes have that have not been seen. -/
def edgesLeft (g : Graph) (edges : Node → List String) (seen : List String) : Nat :=
  ((g.nodes.filter fun n => n.name ∉ seen).flatMap edges).length

/-- Entering a node uses up its edges. -/
theorem Indexed.edgesLeft_enter (indexed : g.Indexed) (member : n ∈ g.nodes)
    (new : n.name ∉ seen) :
    g.edgesLeft edges seen = (edges n).length + g.edgesLeft edges (n.name :: seen) := by
  have nodup : g.nodes.Nodup := indexed.nodup_names.of_map _
  have perm : (g.nodes.filter fun m => m.name ∉ seen).Perm
      (n :: g.nodes.filter fun m => m.name ∉ n.name :: seen) := by
    have unlisted : n ∉ g.nodes.filter fun m => m.name ∉ n.name :: seen := by simp
    apply (List.perm_ext_iff_of_nodup (nodup.filter _) (List.nodup_cons.2
      ⟨unlisted, nodup.filter _⟩)).2
    intro m
    by_cases same : m = n
    · subst same
      simp [member, new]
    · have apart (also : m ∈ g.nodes) : m.name ≠ n.name :=
        fun named => same (indexed.eq_of_name also member named)
      simp only [List.mem_filter, List.mem_cons, same, false_or, not_or, decide_eq_true_eq]
      exact and_congr_right fun also => (and_iff_right (apart also)).symm
  rw [edgesLeft, (perm.flatMap_right edges).length_eq, List.flatMap_cons, List.length_append,
    edgesLeft]

/-- A name that no node has uses up nothing. -/
theorem Indexed.edgesLeft_miss (indexed : g.Indexed) (absent : g.node? name = none) :
    g.edgesLeft edges (name :: seen) = g.edgesLeft edges seen := by
  have unnamed : name ∉ g.names := indexed.node?_eq_none_iff.1 absent
  have same : (g.nodes.filter fun n => n.name ∉ name :: seen) =
      g.nodes.filter fun n => n.name ∉ seen := by
    apply List.filter_congr
    intro n member
    have apart : n.name ≠ name := fun named => unnamed (mem_names.2 ⟨n, member, named⟩)
    simp [apart]
  rw [edgesLeft, same, edgesLeft]

/-- As long as there is fuel for what is on the stack and for all edges that can still be put on it,
the program follows the search. -/
theorem Indexed.explores_visit (indexed : g.Indexed) {fuel : Nat}
    (enough : stack.length + g.edgesLeft edges seen ≤ fuel) :
    g.Explores edges seen stack (g.visit edges fuel seen stack) := by
  induction fuel generalizing seen stack with
  | zero =>
      obtain rfl : stack = [] := List.eq_nil_of_length_eq_zero (by omega)
      exact .finish seen
  | succ fuel ih =>
      cases stack with
      | nil => exact .finish seen
      | cons name stack =>
          rw [List.length_cons] at enough
          rw [visit]
          split
          · next known => exact .skip known (ih (by omega))
          · next new =>
            cases at_name : g.node? name with
            | none =>
                apply Explores.miss new at_name
                apply ih
                rw [indexed.edgesLeft_miss at_name]
                omega
            | some n =>
                apply Explores.enter new at_name
                apply ih
                rcases indexed.node?_eq_some_iff.1 at_name with ⟨member, rfl⟩
                have used : g.edgesLeft edges seen =
                    (edges n).length + g.edgesLeft edges (n.name :: seen) :=
                  indexed.edgesLeft_enter member new
                rw [List.length_append]
                omega

/-- A walk is a search that starts with the edges of its node. -/
theorem Indexed.explores_walk (indexed : g.Indexed) (at_name : g.node? name = some n) :
    g.Explores edges [name] (edges n) (g.walk edges name) := by
  rcases indexed.node?_eq_some_iff.1 at_name with ⟨member, rfl⟩
  have all : g.edgesLeft edges [] = (g.nodes.flatMap edges).length := by simp [edgesLeft]
  rw [walk, at_name]
  apply indexed.explores_visit
  rw [← all, indexed.edgesLeft_enter member List.not_mem_nil]

/-- Where a search starts decides all that it finds. -/
theorem Explores.deterministic {found' : List String}
    (explores : g.Explores edges seen stack found) (again : g.Explores edges seen stack found') :
    found = found' := by
  induction explores generalizing found' with
  | finish =>
      cases again
      rfl
  | skip known _ ih =>
      cases again with
      | skip _ next => exact ih next
      | miss new => exact absurd known new
      | enter new => exact absurd known new
  | miss new absent _ ih =>
      cases again with
      | skip known => exact absurd known new
      | miss _ _ next => exact ih next
      | enter _ at_name =>
          rw [absent] at at_name
          cases at_name
  | enter new at_name _ ih =>
      cases again with
      | skip known => exact absurd known new
      | miss _ absent =>
          rw [absent] at at_name
          cases at_name
      | enter _ at_name' next =>
          obtain rfl := Option.some.inj (at_name.symm.trans at_name')
          rw [ih next]

/-! ### What is found -/

/-- Nothing is found that was seen before. -/
theorem Explores.not_mem_seen (explores : g.Explores edges seen stack found)
    (listed : other ∈ found) : other ∉ seen := by
  induction explores with
  | finish => cases listed
  | skip _ _ ih => exact ih listed
  | miss _ _ _ ih => exact fun known => ih listed (List.mem_cons_of_mem _ known)
  | enter new _ _ ih =>
      rcases List.mem_cons.1 listed with rfl | later
      · exact new
      · exact fun known => ih later (List.mem_cons_of_mem _ known)

/-- Nothing is found twice: a name that is found has been seen from then on. -/
theorem Explores.nodup (explores : g.Explores edges seen stack found) : found.Nodup := by
  induction explores with
  | finish => exact List.nodup_nil
  | skip _ _ ih => exact ih
  | miss _ _ _ ih => exact ih
  | enter _ _ next ih =>
      rw [List.nodup_cons]
      exact ⟨fun later => next.not_mem_seen later List.mem_cons_self, ih⟩

/-- What holds of the nodes on the stack, and passes along edges, holds of all that is found. -/
theorem Explores.forall_found (explores : g.Explores edges seen stack found)
    (indexed : g.Indexed) {P : String → Prop}
    (passes : ∀ source target, P source → g.Leads edges source target → P target)
    (start : ∀ name ∈ stack, g.has name = true → P name) : ∀ name ∈ found, P name := by
  induction explores with
  | finish => exact fun _ listed => nomatch listed
  | skip _ _ ih => exact ih fun name later => start name (List.mem_cons_of_mem _ later)
  | miss _ _ _ ih => exact ih fun name later => start name (List.mem_cons_of_mem _ later)
  | @enter seen stack found name n _ at_name _ ih =>
      have member := indexed.node?_eq_some_iff.1 at_name
      have here : P name :=
        start name List.mem_cons_self (indexed.has_iff.2 (mem_names.2 ⟨n, member⟩))
      have behind : ∀ other ∈ found, P other := by
        apply ih
        intro other listed has
        rcases List.mem_append.1 listed with edge | later
        · exact passes name other here ⟨has, n, at_name, edge⟩
        · exact start other (List.mem_cons_of_mem _ later) has
      intro other listed
      rcases List.mem_cons.1 listed with rfl | later
      · exact here
      · exact behind other later

/-- The search leaves nothing out: nodes on the stack are found, and so are those that an edge of
what is found leads to, unless they have been seen before. -/
theorem Explores.covers (explores : g.Explores edges seen stack found) (indexed : g.Indexed)
    (has : g.has other = true)
    (open_end : other ∈ stack ∨ ∃ name ∈ found, g.Leads edges name other) :
    other ∈ seen ∨ other ∈ found := by
  induction explores with
  | finish => simp at open_end
  | skip known _ ih =>
      rcases open_end with listed | behind
      · rcases List.mem_cons.1 listed with rfl | later
        · exact .inl known
        · exact ih (.inl later)
      · exact ih (.inr behind)
  | @miss seen stack found name _ absent _ ih =>
      have apart : other ≠ name := by
        rintro rfl
        exact indexed.node?_eq_none_iff.1 absent (indexed.has_iff.1 has)
      have settled : other ∈ name :: seen ∨ other ∈ found := by
        apply ih
        rcases open_end with listed | behind
        · exact .inl (List.mem_of_ne_of_mem apart listed)
        · exact .inr behind
      exact settled.imp_left (List.mem_of_ne_of_mem apart)
  | @enter seen stack found name n _ at_name _ ih =>
      by_cases same : other = name
      · exact .inr (same ▸ List.mem_cons_self)
      · have settled : other ∈ name :: seen ∨ other ∈ found := by
          apply ih
          rcases open_end with listed | ⟨source, listed, leads⟩
          · exact .inl (List.mem_append_right _ (List.mem_of_ne_of_mem same listed))
          · rcases List.mem_cons.1 listed with rfl | later
            · obtain ⟨_, m, at_source, edge⟩ := leads
              obtain rfl : n = m := Option.some.inj (at_name.symm.trans at_source)
              exact .inl (List.mem_append_left _ edge)
            · exact .inr ⟨source, later, leads⟩
        exact settled.imp (List.mem_of_ne_of_mem same) (List.mem_cons_of_mem _)

/-- A walk finds the nodes that can be reached from its node along edges, other than that node
itself. -/
theorem Indexed.mem_walk_iff (indexed : g.Indexed) :
    other ∈ g.walk edges name ↔ other ≠ name ∧ TransGen (g.Leads edges) name other := by
  cases at_name : g.node? name with
  | none =>
      have nowhere : ¬ TransGen (g.Leads edges) name other := by
        intro reached
        obtain ⟨_, ⟨_, n, found, _⟩, _⟩ := TransGen.head'_iff.1 reached
        rw [at_name] at found
        cases found
      simp [walk, at_name, nowhere]
  | some n =>
      have explores : g.Explores edges [name] (edges n) (g.walk edges name) :=
        indexed.explores_walk at_name
      have leads_of_edge {target : String} (listed : target ∈ edges n)
          (has : g.has target = true) : g.Leads edges name target := ⟨has, n, at_name, listed⟩
      have found_first {target : String} (leads : g.Leads edges name target) :
          target = name ∨ target ∈ g.walk edges name := by
        obtain ⟨has, m, at_name', edge⟩ := leads
        obtain rfl : n = m := Option.some.inj (at_name.symm.trans at_name')
        simpa using explores.covers indexed has (.inl edge)
      -- Every node on the way is found, or it is the one at which the walk starts.
      have found_later {target : String} (reached : TransGen (g.Leads edges) name target) :
          target = name ∨ target ∈ g.walk edges name := by
        induction reached with
        | single leads => exact found_first leads
        | tail _ leads ih =>
            rcases ih with rfl | listed
            · exact found_first leads
            · simpa using explores.covers indexed leads.1 (.inr ⟨_, listed, leads⟩)
      constructor
      · intro listed
        constructor
        · simpa using explores.not_mem_seen listed
        · apply explores.forall_found indexed _ _ other listed
          · exact fun _ _ reached leads => reached.tail leads
          · exact fun _ edge has => .single (leads_of_edge edge has)
      · intro both
        rcases both with ⟨apart, reached⟩
        exact (found_later reached).resolve_left apart

/-- The walk along inputs finds the nodes that a node depends on. -/
theorem Indexed.mem_predecessors_iff (indexed : g.Indexed) :
    other ∈ g.predecessors name ↔ other ≠ name ∧ TransGen g.Precedes other name := by
  have turned : g.Leads Node.inputs = Function.swap g.Precedes := rfl
  rw [predecessors, indexed.mem_walk_iff, turned, transGen_swap]

/-- What a node depends on, and the node itself. -/
theorem Indexed.mem_predecessors_append_iff (indexed : g.Indexed) :
    other ∈ g.predecessors name ++ [name] ↔ ReflTransGen g.Precedes other name := by
  rw [List.mem_append, indexed.mem_predecessors_iff, List.mem_singleton,
    reflTransGen_iff_eq_or_transGen]
  by_cases same : other = name
  · simp [same]
  · simp [same, Ne.symm same]

/-! ### Both directions -/

/-- The list of all nodes that can be reached from a name along edges, each listed once. A search
without fuel that starts at the node of that name comes to an end, and ends with this list. -/
structure ListsReachable (g : Graph) (edges : Node → List String) (name : String)
    (found : List String) : Prop where
  nodup : found.Nodup
  mem_iff : ∀ other, other ∈ found ↔ other ≠ name ∧ TransGen (g.Leads edges) name other
  eq_nil_of_absent : g.has name = false → found = []
  explores_iff : ∀ n, g.node? name = some n → ∀ end_found,
    g.Explores edges [name] (edges n) end_found ↔ end_found = found

theorem Indexed.listsReachable_walk (indexed : g.Indexed) (edges : Node → List String)
    (name : String) : g.ListsReachable edges name (g.walk edges name) where
  nodup := by
    cases at_name : g.node? name with
    | none =>
        rw [walk, at_name]
        exact List.nodup_nil
    | some n => exact (indexed.explores_walk at_name).nodup
  mem_iff := fun _ => indexed.mem_walk_iff
  eq_nil_of_absent := by
    intro absent
    have unlisted : name ∉ g.names := by
      rw [← indexed.has_iff, absent]
      exact Bool.false_ne_true
    rw [walk, indexed.node?_eq_none_iff.2 unlisted]
  explores_iff := by
    intro n at_name end_found
    have walks : g.Explores edges [name] (edges n) (g.walk edges name) :=
      indexed.explores_walk at_name
    constructor
    · exact fun explores => explores.deterministic walks
    · rintro rfl
      exact walks

/-- **Walks.** In every graph, whatever its history and the edges of its nodes are, the two walks
from a name come to an end. They list, each node once, the nodes other than that of the name that
can be reached from it along inputs, or along successors, where every node on the way exists. From
a name that is missing nothing can be reached. -/
theorem walks_list_reachable (reached : g.Reached) (name : String) :
    g.ListsReachable Node.inputs name (g.predecessors name) ∧
      g.ListsReachable Node.outputs name (g.successors name) :=
  ⟨reached.indexed.listsReachable_walk _ name, reached.indexed.listsReachable_walk _ name⟩

/-- Two nodes that take inputs from each other, the first one also from itself and twice from a name
that is missing, and a node behind them. -/
def entangled : List Node :=
  [{ name := "a", kind := .op, inputs := ["z", "b", "a", "z"] },
    { name := "b", kind := .op, inputs := ["a", "a"] },
    { name := "c", kind := .output, inputs := ["b", "z"] }]

theorem walks_entangled : ∃ g, entangled.foldlM add (empty (.text "g")) = .ok g ∧ g.Reached ∧
    g.predecessors "c" = ["b", "a"] ∧ TransGen (g.Leads Node.inputs) "c" "a" ∧
    ¬ TransGen (g.Leads Node.inputs) "c" "z" ∧ g.predecessors "z" = [] ∧
    g.successors "a" = ["b", "c"] ∧ TransGen (g.Leads Node.outputs) "a" "c" := by
  obtain ⟨g, made⟩ : ∃ g, entangled.foldlM add (empty (.text "g")) = .ok g := ⟨_, rfl⟩
  have reached : g.Reached := (Reached.empty _).foldlM_add made
  obtain ⟨back, forth, missing⟩ : g.predecessors "c" = ["b", "a"] ∧ g.successors "a" = ["b", "c"] ∧
      g.has "z" = false := by
    cases made
    exact ⟨rfl, rfl, rfl⟩
  have behind := (walks_list_reachable reached "c").1
  have ahead := (walks_list_reachable reached "a").2
  have nowhere := (walks_list_reachable reached "z").1.eq_nil_of_absent missing
  rw [back] at behind
  rw [forth] at ahead
  refine ⟨g, made, reached, back, ((behind.mem_iff "a").1 (by simp)).2, fun reaches => ?_, nowhere,
    forth, ((ahead.mem_iff "c").1 (by simp)).2⟩
  have listed := (behind.mem_iff "z").2 ⟨by decide, reaches⟩
  simp at listed

end TensorGraph.Graph
