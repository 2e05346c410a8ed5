import TensorGraph.Graph.Order
import TensorGraph.Proofs.Graph.Store

/-!
The queue that orders the nodes of a graph, without its counters. What a node still waits for is a
function of the names that have been placed, and so is what joins the queue when one more name is
placed. `Serves` is the run of the queue in these terms: a relation between what has been placed,
what is ready, and what is placed from then on. The counters of the program keep the same account,
so the order it computes is the one that `Serves` describes.
-/

namespace TensorGraph.Graph

variable {g : Graph} {n m : Node} {name : String} {done ready rest : List String}

/-- How many inputs a node still waits for once some names have been placed. -/
def waitsFor (g : Graph) (done : List String) (n : Node) : Nat :=
  n.inputs.countP fun p => g.has p && p ∉ done

/-- The nodes whose last input is provided when a name is placed. -/
def freed (g : Graph) (done : List String) (name : String) : List String :=
  (g.nodes.filter fun n =>
    g.waitsFor done n ≠ 0 ∧ g.waitsFor (done ++ [name]) n = 0).map Node.name

/-- The nodes that wait for nothing from the start. -/
def sources (g : Graph) : List String :=
  (g.nodes.filter fun n => g.waitsFor [] n = 0).map Node.name

/-- Where some names have been placed and some are ready, the rest of the order is `rest`: the
first name that is ready comes next, and those it frees join the queue at its end. -/
inductive Serves (g : Graph) : List String → List String → List String → Prop where
  | idle (done : List String) : Serves g done [] []
  | serve {done ready rest : List String} {name : String}
      (next : Serves g (done ++ [name]) (ready ++ g.freed done name) rest) :
      Serves g done (name :: ready) (name :: rest)

/-- The queue leaves no choice. -/
theorem Serves.deterministic {other : List String} (one : g.Serves done ready rest)
    (two : g.Serves done ready other) : rest = other := by
  induction one generalizing other with
  | idle =>
      cases two
      rfl
  | serve _ ih =>
      cases two with
      | serve next => rw [ih next]

/-- What is ready is placed first, in the order in which it joined. -/
theorem Serves.ready_prefix (serves : g.Serves done ready rest) : ready <+: rest := by
  induction serves with
  | idle => exact List.prefix_rfl
  | @serve done ready rest name _ ih =>
      rw [List.prefix_cons_inj]
      exact (List.prefix_append ready _).trans ih

/-! ### What a node waits for -/

theorem waitsFor_eq_zero_iff :
    g.waitsFor done n = 0 ↔ ∀ p ∈ n.inputs, g.has p = true → p ∈ done := by
  simp [waitsFor, List.countP_eq_zero]

/-- Placing a name that is there provides each input that has it. -/
theorem waitsFor_append (present : g.has name = true) (unplaced : name ∉ done) :
    g.waitsFor (done ++ [name]) n + n.inputs.count name = g.waitsFor done n := by
  rw [waitsFor, waitsFor]
  induction n.inputs with
  | nil => rfl
  | cons p ps ih =>
      rw [List.countP_cons, List.countP_cons, List.count_cons, ← ih]
      by_cases same : p = name
      · simp [same, present, unplaced]
        omega
      · simp [same]
        omega

theorem waitsFor_append_eq_zero (placed : g.waitsFor done n = 0) :
    g.waitsFor (done ++ [name]) n = 0 := by
  rw [waitsFor_eq_zero_iff] at placed ⊢
  exact fun p member present => List.mem_append_left _ (placed p member present)

theorem Indexed.mem_freed_iff (indexed : g.Indexed) (member : n ∈ g.nodes) :
    n.name ∈ g.freed done name ↔
      g.waitsFor done n ≠ 0 ∧ g.waitsFor (done ++ [name]) n = 0 := by
  rw [freed, indexed.name_mem_filter_iff member, decide_eq_true_eq]

theorem Indexed.mem_sources_iff (indexed : g.Indexed) (member : n ∈ g.nodes) :
    n.name ∈ g.sources ↔ g.waitsFor [] n = 0 := by
  rw [sources, indexed.name_mem_filter_iff member, decide_eq_true_eq]

/-! ### Stages of the queue -/

/-- A stage of the queue: no name is listed twice, the nodes that are placed or ready are those
that wait for nothing, and no other name is listed. -/
structure Stage (g : Graph) (done ready : List String) : Prop where
  nodup : (done ++ ready).Nodup
  mem_iff : ∀ n ∈ g.nodes, n.name ∈ done ++ ready ↔ g.waitsFor done n = 0
  known : ∀ name ∈ done ++ ready, name ∈ g.names

/-- The queue starts with the nodes that wait for nothing. -/
theorem Indexed.stage_sources (indexed : g.Indexed) : g.Stage [] g.sources where
  nodup := indexed.nodup_filter _
  mem_iff := fun _ member => indexed.mem_sources_iff member
  known := fun _ listed => (List.filter_sublist.map _).subset listed

/-- Placing the first name that is ready leads to the next stage. -/
theorem Stage.step (stage : g.Stage done (name :: ready)) (indexed : g.Indexed) :
    g.Stage (done ++ [name]) (ready ++ g.freed done name) := by
  have regroup : done ++ [name] ++ (ready ++ g.freed done name) =
      (done ++ name :: ready) ++ g.freed done name := by simp
  refine ⟨?_, ?_, ?_⟩
  · rw [regroup, List.nodup_append]
    refine ⟨stage.nodup, indexed.nodup_filter _, ?_⟩
    -- A node that is freed now waited until now, so it was not listed before.
    rintro earlier listed _ new rfl
    obtain ⟨n, member, rfl⟩ := mem_names.1 (stage.known earlier listed)
    exact ((indexed.mem_freed_iff member).1 new).1 ((stage.mem_iff n member).1 listed)
  · intro n member
    rw [regroup, List.mem_append, stage.mem_iff n member, indexed.mem_freed_iff member]
    constructor
    · intro settled
      rcases settled with placed | ⟨_, frees⟩
      · exact waitsFor_append_eq_zero placed
      · exact frees
    · intro frees
      by_cases placed : g.waitsFor done n = 0
      · exact .inl placed
      · exact .inr ⟨placed, frees⟩
  · intro other listed
    rw [regroup, List.mem_append] at listed
    rcases listed with earlier | new
    · exact stage.known other earlier
    · exact (List.filter_sublist.map _).subset new

/-- At every stage there is room for what is listed. -/
theorem Stage.length_le (stage : g.Stage done ready) :
    done.length + ready.length ≤ g.nodes.length := by
  have inside := (List.subperm_of_subset stage.nodup stage.known).length_le
  simpa [names] using inside

/-- A run of the queue leads from stage to stage until nothing is ready. -/
theorem Serves.stage (serves : g.Serves done ready rest) (indexed : g.Indexed)
    (stage : g.Stage done ready) : g.Stage (done ++ rest) [] := by
  induction serves with
  | idle => simpa using stage
  | serve _ ih => simpa using ih (stage.step indexed)

/-- When a name is placed, its node waits for nothing. -/
theorem Serves.waitsFor_eq_zero (serves : g.Serves done ready rest) (indexed : g.Indexed)
    (stage : g.Stage done ready) {before behind : List String} (member : n ∈ g.nodes)
    (split : rest = before ++ n.name :: behind) : g.waitsFor (done ++ before) n = 0 := by
  induction serves generalizing before with
  | idle => simp at split
  | @serve done ready rest name _ ih =>
      cases before with
      | nil =>
          obtain ⟨rfl, _⟩ := List.cons.inj split
          simpa using (stage.mem_iff n member).1 (by simp)
      | cons first before =>
          obtain ⟨rfl, later⟩ := List.cons.inj split
          simpa using ih (stage.step indexed) later

/-! ### Counters -/

/-- The counters of the program keep account of what each node waits for. -/
def Counted (g : Graph) (done : List String) (waiting : Entries Nat) : Prop :=
  ∀ n ∈ g.nodes, waiting.get? n.name = some (g.waitsFor done n)

/-- Releasing inputs of one node, as many as it has from the name that is placed: the counter goes
down by their number, and the node joins the queue if that leaves nothing to wait for. -/
theorem foldl_release_replicate {waiting : Entries Nat} {count left : Nat}
    (counted : waiting.get? name = some left) (enough : count ≤ left) (ready : List String) :
    ∃ after : Entries Nat,
      (List.replicate count name).foldl release (waiting, ready) =
        (after, ready ++ if left ≠ 0 ∧ left = count then [name] else []) ∧
      after.get? name = some (left - count) ∧
      ∀ other, other ≠ name → after.get? other = waiting.get? other := by
  -- The node joins at the release that takes the counter to zero; that is the last one, because
  -- there are at most as many releases as there are inputs left.
  induction count generalizing waiting ready left with
  | zero =>
      refine ⟨waiting, ?_, counted, fun _ _ => rfl⟩
      by_cases nothing : left = 0 <;> simp [nothing]
  | succ count ih =>
      obtain ⟨after, ran, at_name, elsewhere⟩ :=
        ih (Entries.get?_put_self waiting name (left - 1)) (by omega)
          (if left - 1 = 0 then ready ++ [name] else ready)
      refine ⟨after, ?_, ?_, fun other ne => ?_⟩
      · rw [List.replicate_succ, List.foldl_cons, release, counted, Option.getD_some, ran]
        by_cases last : left = 1
        · simp [last, show count = 0 by omega]
        · have waits : ¬ left - 1 = 0 := by omega
          have same : left - 1 = count ↔ left ≠ 0 ∧ left = count + 1 := by omega
          simp [waits, same]
      · rw [at_name, Nat.sub_sub, Nat.add_comm 1 count]
      · rw [elsewhere other ne, Entries.get?_put_of_ne _ _ ne]

/-- Releasing the inputs that some nodes have from the name that is placed. -/
theorem foldl_release_takers {ns : List Node} {waiting : Entries Nat} {left : Node → Nat}
    (nodup : (ns.map Node.name).Nodup)
    (counted : ∀ n ∈ ns, waiting.get? n.name = some (left n))
    (enough : ∀ n ∈ ns, n.inputs.count name ≤ left n) (ready : List String) :
    ∃ after : Entries Nat,
      (ns.flatMap fun n => List.replicate (n.inputs.count name) n.name).foldl release
          (waiting, ready) =
        (after, ready ++
          (ns.filter fun n => left n ≠ 0 ∧ left n = n.inputs.count name).map Node.name) ∧
      (∀ n ∈ ns, after.get? n.name = some (left n - n.inputs.count name)) ∧
      ∀ other, other ∉ ns.map Node.name → after.get? other = waiting.get? other := by
  -- Names differ, so the releases of one node leave the counters of all others alone.
  induction ns generalizing waiting ready with
  | nil => exact ⟨waiting, by simp, by simp, fun _ _ => rfl⟩
  | cons first rest ih =>
      rw [List.map_cons, List.nodup_cons] at nodup
      obtain ⟨middle, ran_first, at_first, beside⟩ :=
        foldl_release_replicate (counted first List.mem_cons_self)
          (enough first List.mem_cons_self) ready
      have apart (n : Node) (member : n ∈ rest) : n.name ≠ first.name := by
        intro same
        exact nodup.1 (same ▸ List.mem_map_of_mem member)
      obtain ⟨after, ran_rest, at_rest, elsewhere⟩ := ih nodup.2
        (fun n member => (beside _ (apart n member)).trans
          (counted n (List.mem_cons_of_mem _ member)))
        (fun n member => enough n (List.mem_cons_of_mem _ member))
        (ready ++ if left first ≠ 0 ∧ left first = first.inputs.count name then [first.name]
          else [])
      refine ⟨after, ?_, ?_, ?_⟩
      · rw [List.flatMap_cons, List.foldl_append, ran_first, ran_rest, List.append_assoc]
        by_cases joins : left first ≠ 0 ∧ left first = first.inputs.count name
        · rw [if_pos joins, List.filter_cons_of_pos (by simpa using joins)]
          rfl
        · rw [if_neg joins, List.filter_cons_of_neg (by simpa using joins)]
          rfl
      · intro n member
        rcases List.mem_cons.1 member with rfl | later
        · rw [elsewhere _ nodup.1, at_first]
        · exact at_rest n later
      · intro other absent
        rw [List.map_cons, List.mem_cons, not_or] at absent
        rw [elsewhere other absent.2, beside other absent.1]

theorem consumers_eq : g.consumers name =
    g.nodes.flatMap fun n => List.replicate (n.inputs.count name) n.name := by
  rw [consumers]
  apply List.flatMap_congr
  intro n _
  rw [List.map_const', ← List.countP_eq_length_filter, List.count]
  congr 2

/-- Releasing the consumers of the name that is placed frees the nodes that waited for it alone,
and the counters keep account. -/
theorem Counted.release {waiting : Entries Nat} (counted : g.Counted done waiting)
    (indexed : g.Indexed) (present : name ∈ g.names) (unplaced : name ∉ done)
    (ready : List String) :
    ∃ after : Entries Nat, (g.consumers name).foldl release (waiting, ready) =
        (after, ready ++ g.freed done name) ∧ g.Counted (done ++ [name]) after := by
  have balance (n : Node) : g.waitsFor (done ++ [name]) n + n.inputs.count name =
      g.waitsFor done n := waitsFor_append (indexed.has_iff.2 present) unplaced
  have enough (n : Node) (_ : n ∈ g.nodes) : n.inputs.count name ≤ g.waitsFor done n := by
    rw [← balance n]
    exact Nat.le_add_left _ _
  obtain ⟨after, ran, at_nodes, _⟩ :=
    foldl_release_takers indexed.nodup_names counted enough ready
  refine ⟨after, ?_, fun n member => ?_⟩
  · rw [consumers_eq, ran, freed]
    congr 3
    refine List.filter_congr fun n _ => decide_eq_decide.2 ?_
    have := balance n
    omega
  · rw [at_nodes n member, ← balance n, Nat.add_sub_cancel]

theorem Indexed.counted_openInputs (indexed : g.Indexed) : g.Counted [] g.openInputs := by
  intro n member
  have keys_eq : Entries.keys g.openInputs = g.names := by
    simp [Entries.keys, openInputs, names, Function.comp_def]
  rw [Entries.get?_eq_some_iff (by rw [keys_eq]; exact indexed.nodup_names)]
  refine List.mem_map.2 ⟨n, member, ?_⟩
  simp [waitsFor, List.countP_eq_length_filter]

/-- As long as there is fuel for every node that is not placed, the program follows the queue. -/
theorem Stage.serves_placed {waiting : Entries Nat} {count : Nat}
    (stage : g.Stage done ready) (indexed : g.Indexed) (counted : g.Counted done waiting)
    (fuel : done.length + count = g.nodes.length) :
    g.Serves done ready (g.placed count waiting ready) := by
  induction count generalizing done ready waiting with
  | zero =>
      -- Every node is placed, and the rest of the stage would need room beyond that.
      have full := stage.length_le
      obtain rfl : ready = [] := List.eq_nil_of_length_eq_zero (by omega)
      exact .idle done
  | succ count ih =>
      cases ready with
      | nil => exact .idle done
      | cons name ready =>
          have known : name ∈ g.names := stage.known name (by simp)
          have unplaced : name ∉ done := by
            have apart := (List.nodup_append.1 stage.nodup).2.2
            exact fun member => apart name member name List.mem_cons_self rfl
          obtain ⟨after, ran, counted'⟩ := counted.release indexed known unplaced ready
          rw [placed, ran]
          refine .serve (ih (stage.step indexed) counted' ?_)
          rw [List.length_append, List.length_singleton]
          omega

/-- The order that the program computes is the one in which the queue serves the nodes. -/
theorem Indexed.serves_placement (indexed : g.Indexed) : g.Serves [] g.sources g.placement := by
  have ready_eq : (g.openInputs.filter (·.2 = 0)).map (·.1) = g.sources := by
    rw [openInputs, List.filter_map, List.map_map, sources]
    simp [waitsFor, List.countP_eq_length_filter, Function.comp_def]
  rw [placement, ready_eq]
  exact indexed.stage_sources.serves_placed indexed indexed.counted_openInputs (by simp)

theorem Indexed.placement_eq_iff (indexed : g.Indexed) {order : List String} :
    g.placement = order ↔ g.Serves [] g.sources order := by
  constructor
  · rintro rfl
    exact indexed.serves_placement
  · exact indexed.serves_placement.deterministic

end TensorGraph.Graph
