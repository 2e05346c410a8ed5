import TensorGraph.Proofs.Graph.Union

/-!
Unions of three graphs, all names as they are. Two graphs have a union if and only if no name occurs
twice in them, and the union is the two side by side in packed slots. To put graphs side by side is
associative, and whether a name occurs twice in three graphs does not depend on the order in which
they are taken in; so the two ways of uniting three graphs make the same graph, or both make none.
-/

namespace TensorGraph.Graph

variable {g other union first second third : Graph} {base : Graph} {ns : List Node}
  {stem : Option String}

/-- Two graphs side by side in packed slots, under the name and the metadata of the first. -/
def beside (g other : Graph) : Graph :=
  pack { g with
    slots := g.slots ++ other.slots
    inputs := g.inputs ++ other.inputs
    outputs := g.outputs ++ other.outputs }

@[simp] theorem nodes_beside : (g.beside other).nodes = g.nodes ++ other.nodes := by
  rw [beside, nodes_pack, nodes, List.filterMap_append, nodes, nodes]

@[simp] theorem names_beside : (g.beside other).names = g.names ++ other.names := by
  rw [names, nodes_beside, List.map_append, names, names]

theorem beside_assoc : (first.beside second).beside third = first.beside (second.beside third) := by
  simp [beside, pack, nodes, List.filterMap_map]

/-! ### Unions of two graphs -/

/-- Nodes that are put in one after the other are indexed by the places behind those that are
taken. -/
theorem index_foldl_insert : (ns.foldl insert base).index =
    base.index.putAll ((ns.zipIdx base.slots.length).map fun (n, slot) => (n.name, slot)) := by
  induction ns generalizing base with
  | nil => rfl
  | cons n ns ih =>
      rw [List.foldl_cons, ih, List.zipIdx_cons, List.map_cons, insert, List.length_append]
      rfl

/-- Slots of a union are packed, and indexed as packing does it. -/
theorem index_union (merged : g.merge other stem = .ok union) :
    union.index = .ofEntries (union.nodes.zipIdx.map fun (n, slot) => (n.name, slot)) := by
  rw [nodes_union merged]
  obtain ⟨whole, absorbed, named⟩ := bind_eq_ok_iff.1 merged
  cases named
  rw [eq_foldl_insert_of_absorb absorbed, clone, ← List.foldl_append]
  exact index_foldl_insert

theorem renamed_none : renamed none = id := rfl

theorem renamedNode_none : renamedNode none = id := by
  funext n
  simp [renamedNode, renamed_none]

theorem eq_beside_of_merge (merged : g.merge other none = .ok union) :
    union = g.beside other := by
  have nodes_eq : union.nodes = (g.beside other).nodes := by
    rw [nodes_union merged, nodes_beside, renamedNode_none, List.map_id]
  rw [union_eq merged, index_union merged, nodes_eq, renamedNode_none, renamed_none]
  simp [beside, pack, nodes]

/-- No name occurs twice in two graphs: they have a union. -/
theorem Indexed.merge_of_nodup (indexed : g.Indexed) (indexed' : other.Indexed)
    (apart : (g.names ++ other.names).Nodup) : g.merge other none = .ok (g.beside other) := by
  cases merged : g.merge other none with
  | ok union => rw [eq_beside_of_merge merged]
  | error e =>
      obtain ⟨name, has, taken⟩ := (indexed.exists_merge_eq_error_iff indexed').1 ⟨e, merged⟩
      have both := (List.nodup_append.1 apart).2.2
      exact absurd rfl (both name (indexed.has_iff.1 taken) name (indexed'.has_iff.1 has))

/-- Some name does: they have none. -/
theorem Indexed.merge_of_not_nodup (indexed : g.Indexed) (indexed' : other.Indexed)
    (meet : ¬ (g.names ++ other.names).Nodup) :
    ∃ name, g.merge other none = .error (.graph (.mergeCollision other.name name)) := by
  cases merged : g.merge other none with
  | ok union =>
      have nodup := (indexed.merge merged).nodup_names
      rw [eq_beside_of_merge merged, names_beside] at nodup
      exact absurd nodup meet
  | error e =>
      obtain ⟨name, _, rfl⟩ := (indexed.merge_eq_error_iff indexed').1 merged
      exact ⟨name, rfl⟩

theorem Indexed.beside (indexed : g.Indexed) (indexed' : other.Indexed)
    (apart : (g.names ++ other.names).Nodup) : (g.beside other).Indexed :=
  indexed.merge (indexed.merge_of_nodup indexed' apart)

/-! ### Unions of three graphs -/

/-- The first two graphs are united, then the third one is taken in. -/
def mergeFromLeft (first second third : Graph) : Except Error Graph := do
  (← first.merge second none).merge third none

/-- The last two graphs are united, then the first one takes them in. -/
def mergeFromRight (first second third : Graph) : Except Error Graph := do
  first.merge (← second.merge third none) none

section Three

variable (one : first.Indexed) (two : second.Indexed) (three : third.Indexed)

include one two three

theorem mergeFromLeft_of_nodup
    (apart : (first.names ++ second.names ++ third.names).Nodup) :
    mergeFromLeft first second third = .ok ((first.beside second).beside third) := by
  have begun := (List.nodup_append.1 apart).1
  rw [mergeFromLeft, one.merge_of_nodup two begun, ok_bind]
  apply (one.beside two begun).merge_of_nodup three
  rwa [names_beside]

theorem mergeFromRight_of_nodup
    (apart : (first.names ++ second.names ++ third.names).Nodup) :
    mergeFromRight first second third = .ok (first.beside (second.beside third)) := by
  rw [List.append_assoc] at apart
  have begun := (List.nodup_append.1 apart).2.1
  rw [mergeFromRight, two.merge_of_nodup three begun, ok_bind]
  apply one.merge_of_nodup (two.beside three begun)
  rwa [names_beside]

/-- Names meet in the first two graphs, or one of the third graph meets one of their union. -/
theorem mergeFromLeft_of_not_nodup
    (meet : ¬ (first.names ++ second.names ++ third.names).Nodup) :
    ∃ e, mergeFromLeft first second third = .error (.graph e) := by
  rw [mergeFromLeft]
  by_cases begun : (first.names ++ second.names).Nodup
  · rw [← names_beside] at meet
    obtain ⟨name, failed⟩ := (one.beside two begun).merge_of_not_nodup three meet
    rw [one.merge_of_nodup two begun, ok_bind]
    exact ⟨_, failed⟩
  · obtain ⟨name, failed⟩ := one.merge_of_not_nodup two begun
    rw [failed, error_bind]
    exact ⟨_, rfl⟩

/-- Names meet in the last two graphs, or one of the first graph meets one of their union. -/
theorem mergeFromRight_of_not_nodup
    (meet : ¬ (first.names ++ second.names ++ third.names).Nodup) :
    ∃ e, mergeFromRight first second third = .error (.graph e) := by
  rw [mergeFromRight]
  by_cases begun : (second.names ++ third.names).Nodup
  · rw [List.append_assoc, ← names_beside] at meet
    obtain ⟨name, failed⟩ := one.merge_of_not_nodup (two.beside three begun) meet
    rw [two.merge_of_nodup three begun, ok_bind]
    exact ⟨_, failed⟩
  · obtain ⟨name, failed⟩ := two.merge_of_not_nodup three begun
    rw [failed, error_bind]
    exact ⟨_, rfl⟩

end Three

/-- **Unions are associative.** Of three graphs, whatever their histories are, and with all names as
they are, the first two can be united and then the third, or the last two and then the first. Either
way fails, with an error about graphs, if and only if some name occurs twice in the three; otherwise
both make one and the same graph. It consists of the nodes of the three as they are, in that order,
of their inputs and of their outputs, and it has the name and the metadata of the first. -/
theorem merge_assoc (one : first.Reached) (two : second.Reached) (three : third.Reached) :
    ((∃ e, mergeFromLeft first second third = .error (.graph e)) ↔
      ¬ (first.names ++ second.names ++ third.names).Nodup) ∧
    ((∃ e, mergeFromRight first second third = .error (.graph e)) ↔
      ¬ (first.names ++ second.names ++ third.names).Nodup) ∧
    ((first.names ++ second.names ++ third.names).Nodup → ∃ union,
      mergeFromLeft first second third = .ok union ∧
      mergeFromRight first second third = .ok union ∧
      union.ConsistsOf (first.nodes ++ second.nodes ++ third.nodes)
        (first.inputs ++ second.inputs ++ third.inputs)
        (first.outputs ++ second.outputs ++ third.outputs) ∧
      union.name = first.name ∧ union.metadata = first.metadata) := by
  have left := mergeFromLeft_of_nodup one.indexed two.indexed three.indexed
  have right := mergeFromRight_of_nodup one.indexed two.indexed three.indexed
  refine ⟨⟨?_, mergeFromLeft_of_not_nodup one.indexed two.indexed three.indexed⟩,
    ⟨?_, mergeFromRight_of_not_nodup one.indexed two.indexed three.indexed⟩, fun apart => ?_⟩
  · rintro ⟨e, failed⟩ apart
    cases failed.symm.trans (left apart)
  · rintro ⟨e, failed⟩ apart
    cases failed.symm.trans (right apart)
  · refine ⟨_, left apart, ?_, ⟨?_, rfl, rfl⟩, rfl, rfl⟩
    · rw [right apart, beside_assoc]
    · rw [nodes_beside, nodes_beside]

/-- An operation on a node of another graph. -/
def borrower : Node := { name := "r", kind := .op, inputs := ["x", "q"] }

/-- Graphs of one node each: two that name nodes of the others, and an input. -/
theorem merge_assoc_borrower : ∃ first second third union,
    (empty (.text "f")).add borrower = .ok first ∧
    (empty (.text "s")).add { name := "y", kind := .output, inputs := ["r"] } = .ok second ∧
    (empty (.text "t")).add { name := "x", kind := .input } = .ok third ∧
    first.Reached ∧ second.Reached ∧ third.Reached ∧
    mergeFromLeft first second third = .ok union ∧ mergeFromRight first second third = .ok union ∧
    union.names = ["r", "y", "x"] ∧ union.inputs = ["x"] ∧ union.name = .text "f" ∧
    (∃ e, mergeFromLeft first second first = .error (.graph e)) ∧
    ∃ e, mergeFromRight first second first = .error (.graph e) := by
  obtain ⟨first, one⟩ : ∃ g, (empty (.text "f")).add borrower = .ok g := ⟨_, rfl⟩
  obtain ⟨second, two⟩ : ∃ g, (empty (.text "s")).add
      { name := "y", kind := .output, inputs := ["r"] } = .ok g := ⟨_, rfl⟩
  obtain ⟨third, three⟩ : ∃ g, (empty (.text "t")).add { name := "x", kind := .input } = .ok g :=
    ⟨_, rfl⟩
  have reached : first.Reached := (Reached.empty _).add one
  have reached' : second.Reached := (Reached.empty _).add two
  have reached'' : third.Reached := (Reached.empty _).add three
  obtain ⟨names, names', names'', inputs_eq, title⟩ : first.names = ["r"] ∧ second.names = ["y"] ∧
      third.names = ["x"] ∧ first.inputs ++ second.inputs ++ third.inputs = ["x"] ∧
      first.name = .text "f" := by
    cases one
    cases two
    cases three
    exact ⟨rfl, rfl, rfl, rfl, rfl⟩
  obtain ⟨_, _, united⟩ := merge_assoc reached reached' reached''
  obtain ⟨failed, failed', _⟩ := merge_assoc reached reached' reached
  rw [names, names', names''] at united
  rw [names, names'] at failed failed'
  obtain ⟨union, left, right, whole, named, _⟩ := united (by decide)
  have names_eq : union.names = ["r", "y", "x"] := by
    rw [Graph.names, whole.nodes_eq, List.map_append, List.map_append, ← Graph.names,
      ← Graph.names, ← Graph.names, names, names', names'']
    rfl
  exact ⟨first, second, third, union, one, two, three, reached, reached', reached'', left, right,
    names_eq, whole.inputs_eq.trans inputs_eq, named.trans title, failed.2 (by decide),
    failed'.2 (by decide)⟩

end TensorGraph.Graph
