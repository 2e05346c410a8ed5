import TensorGraph.Proofs.Graph.History
import TensorGraph.Proofs.Graph.Restriction
import TensorGraph.Proofs.Graph.Validity

/-!
Unions. The second graph is taken in under new names; a stem never makes two names one, so names can
only meet across the two graphs, and then there is no union. Nodes whose inputs all exist keep them
on their own side. So no walk along edges changes sides, a union of graphs that pass the checks
passes them, and each side can be cut out of it again.
-/

namespace TensorGraph.Graph

open Relation

variable {g other union base : Graph} {n m : Node} {name p q before behind : String}
  {stem : Option String} {ns : List Node} {title : Value} {e : Error}

/-! ### New names -/

/-- A stem keeps names apart. -/
theorem renamed_injective (stem : Option String) : Function.Injective (renamed stem) := by
  intro one two same
  cases stem with
  | none => exact same
  | some s =>
      rw [renamed, renamed] at same
      split at same
      · exact same
      · exact (String.append_right_inj (s ++ "_")).1 same

theorem map_name_renamedNode :
    (ns.map (renamedNode stem)).map Node.name = (ns.map Node.name).map (renamed stem) := by
  simp [renamedNode]

/-! ### Collisions -/

/-- Taking in nodes of different names fails at the first of them whose name is there from the
start. -/
theorem Indexed.foldlM_absorb_eq_error_iff (indexed : base.Indexed)
    (nodup : (ns.map Node.name).Nodup) :
    ns.foldlM (absorb title) base = .error e ↔
      ∃ name, (ns.map Node.name).find? base.has = some name ∧
        e = .graph (.mergeCollision title name) := by
  induction ns generalizing base with
  | nil => simp
  | cons n ns ih =>
      rw [List.map_cons, List.nodup_cons] at nodup
      rw [List.foldlM_cons, List.map_cons, absorb]
      by_cases taken : base.has n.name = true
      · rw [if_pos taken, List.find?_cons_of_pos taken]
        simp [eq_comm]
      · have fresh : n.name ∉ base.names := by rwa [← indexed.has_iff]
        have same : ∀ name ∈ ns.map Node.name, (base.insert n).has name = base.has name := by
          intro name listed
          have apart : name ≠ n.name := by
            rintro rfl
            exact nodup.1 listed
          rw [Bool.eq_iff_iff, (indexed.insert fresh).has_iff, indexed.has_iff, names_insert]
          simp [apart]
        rw [if_neg taken, List.find?_cons_of_neg taken, ok_bind, ih (indexed.insert fresh) nodup.2,
          List.find?_congr same]

theorem Indexed.has_clone (indexed : g.Indexed) : g.clone.has = g.has := by
  funext name
  rw [Bool.eq_iff_iff, indexed.clone.has_iff, indexed.has_iff, names, nodes_clone, ← names]

/-- There is no union if and only if a new name of the second graph is there in the first; the first
such name is reported. -/
theorem Indexed.merge_eq_error_iff (indexed : g.Indexed) (indexed' : other.Indexed) :
    g.merge other stem = .error e ↔
      ∃ name, (other.names.map (renamed stem)).find? g.has = some name ∧
        e = .graph (.mergeCollision other.name name) := by
  have nodup : ((other.nodes.map (renamedNode stem)).map Node.name).Nodup := by
    rw [map_name_renamedNode]
    exact indexed'.nodup_names.map (renamed_injective stem)
  have taken_in : (other.nodes.map (renamedNode stem)).foldlM (absorb other.name) g.clone =
      .error e ↔ _ := indexed.clone.foldlM_absorb_eq_error_iff nodup
  rw [map_name_renamedNode, indexed.has_clone] at taken_in
  refine Iff.trans ?_ taken_in
  rw [Graph.merge]
  cases (other.nodes.map (renamedNode stem)).foldlM (absorb other.name) g.clone <;> simp

theorem Indexed.exists_merge_eq_error_iff (indexed : g.Indexed) (indexed' : other.Indexed) :
    (∃ e, g.merge other stem = .error e) ↔
      ∃ name, other.has name = true ∧ g.has (renamed stem name) = true := by
  simp only [indexed.merge_eq_error_iff indexed']
  constructor
  · intro failed
    obtain ⟨_, taken, first, _⟩ := failed
    obtain ⟨name, listed, rfl⟩ := List.mem_map.1 (List.mem_of_find?_eq_some first)
    exact ⟨name, indexed'.has_iff.2 listed, List.find?_some first⟩
  · intro collision
    rcases collision with ⟨name, has, taken⟩
    have some_taken : ((other.names.map (renamed stem)).find? g.has).isSome := by
      rw [List.find?_isSome]
      exact ⟨_, List.mem_map_of_mem (indexed'.has_iff.1 has), taken⟩
    obtain ⟨first, found⟩ := Option.isSome_iff_exists.1 some_taken
    exact ⟨_, first, found, rfl⟩

/-! ### The nodes of a union -/

/-- A graph has the nodes of a first one and, under new names, those of a second one. -/
structure Unites (stem : Option String) (g other union : Graph) : Prop where
  left : g.Indexed
  right : other.Indexed
  indexed : union.Indexed
  nodes_eq : union.nodes = g.nodes ++ other.nodes.map (renamedNode stem)

theorem unites_of_merge (indexed : g.Indexed) (indexed' : other.Indexed)
    (merged : g.merge other stem = .ok union) : Unites stem g other union where
  left := indexed
  right := indexed'
  indexed := indexed.merge merged
  nodes_eq := nodes_union merged

/-- A walk along edges ends at a node. -/
theorem Indexed.has_of_transGen (indexed : g.Indexed) (walk : TransGen g.Precedes before behind) :
    g.has behind = true := by
  obtain ⟨_, _, precedes⟩ := TransGen.tail'_iff.1 walk
  exact indexed.has_iff.2 (indexed.mem_names_of_precedes precedes)

section Unites

variable (unites : Unites stem g other union)

include unites

theorem Unites.names_eq : union.names = g.names ++ other.names.map (renamed stem) := by
  rw [names, unites.nodes_eq, List.map_append, map_name_renamedNode, ← names, ← names]

theorem Unites.has_iff : union.has name = true ↔
    g.has name = true ∨ ∃ q, other.has q = true ∧ renamed stem q = name := by
  simp only [unites.indexed.has_iff, unites.left.has_iff, unites.right.has_iff, unites.names_eq,
    List.mem_append, List.mem_map]

theorem Unites.has_left (has : g.has name = true) : union.has name = true :=
  unites.has_iff.2 (.inl has)

theorem Unites.has_right (has : other.has name = true) : union.has (renamed stem name) = true :=
  unites.has_iff.2 (.inr ⟨name, has, rfl⟩)

/-- No name stands on both sides. -/
theorem Unites.not_both (has : g.has (renamed stem name) = true) : ¬ other.has name = true := by
  intro has'
  have nodup := unites.indexed.nodup_names
  rw [unites.names_eq, List.nodup_append] at nodup
  exact nodup.2.2 _ (unites.left.has_iff.1 has) _
    (List.mem_map_of_mem (unites.right.has_iff.1 has')) rfl

theorem Unites.node?_left (found : g.node? name = some n) : union.node? name = some n := by
  rcases unites.left.node?_eq_some_iff.1 found with ⟨member, named⟩
  apply unites.indexed.node?_eq_some_iff.2
  rw [unites.nodes_eq]
  exact ⟨List.mem_append_left _ member, named⟩

theorem Unites.node?_right (found : other.node? name = some n) :
    union.node? (renamed stem name) = some (renamedNode stem n) := by
  rcases unites.right.node?_eq_some_iff.1 found with ⟨member, rfl⟩
  apply unites.indexed.node?_eq_some_iff.2
  rw [unites.nodes_eq]
  exact ⟨List.mem_append_right _ (List.mem_map_of_mem member), rfl⟩

/-- A node of a union lies on one of the sides. -/
theorem Unites.node?_cases (found : union.node? name = some n) :
    g.node? name = some n ∨
      ∃ q m, other.node? q = some m ∧ renamed stem q = name ∧ renamedNode stem m = n := by
  rcases unites.indexed.node?_eq_some_iff.1 found with ⟨member, rfl⟩
  rw [unites.nodes_eq, List.mem_append] at member
  rcases member with one | two
  · exact .inl (unites.left.node?_of_mem one)
  · obtain ⟨m, member', rfl⟩ := List.mem_map.1 two
    exact .inr ⟨m.name, m, unites.right.node?_of_mem member', rfl, rfl⟩

/-- An edge of a union lies on one of the sides. -/
theorem Unites.precedes_cases (whole : g.Whole) (whole' : other.Whole)
    (precedes : union.Precedes before behind) : g.Precedes before behind ∨
      ∃ p q, other.Precedes p q ∧ renamed stem p = before ∧ renamed stem q = behind := by
  obtain ⟨_, n, found, takes⟩ := precedes
  rcases unites.node?_cases found with one | ⟨q, m, two, rfl, rfl⟩
  · have member := (unites.left.node?_eq_some_iff.1 one).1
    exact .inl ⟨whole n member before takes, n, one, takes⟩
  · have member := (unites.right.node?_eq_some_iff.1 two).1
    obtain ⟨p, takes', rfl⟩ := List.mem_map.1 takes
    exact .inr ⟨p, q, ⟨whole' m member p takes', m, two, takes'⟩, rfl, rfl⟩

/-- A walk along edges stays on one of the sides. -/
theorem Unites.transGen_cases (whole : g.Whole) (whole' : other.Whole)
    (walk : TransGen union.Precedes before behind) : TransGen g.Precedes before behind ∨
      ∃ p q, TransGen other.Precedes p q ∧ renamed stem p = before ∧ renamed stem q = behind := by
  induction walk with
  | single precedes =>
      rcases unites.precedes_cases whole whole' precedes with one | ⟨p, q, two, from_p, to_q⟩
      · exact .inl (.single one)
      · exact .inr ⟨p, q, .single two, from_p, to_q⟩
  | tail _ precedes ih =>
      -- The sides share no name at which the walk could change over.
      rcases ih with one | ⟨p, q, two, from_p, to_q⟩ <;>
        rcases unites.precedes_cases whole whole' precedes with edge |
          ⟨p', q', edge, from_p', to_q'⟩
      · exact .inl (one.tail edge)
      · have here := unites.left.has_of_transGen one
        rw [← from_p'] at here
        exact absurd edge.1 (unites.not_both here)
      · have there := unites.right.has_of_transGen two
        have here := edge.1
        rw [← to_q] at here
        exact absurd there (unites.not_both here)
      · obtain rfl : q = p' := renamed_injective stem (to_q.trans from_p'.symm)
        exact .inr ⟨p, q', two.tail edge, from_p, to_q'⟩

/-- A union of graphs without cycles has none. -/
theorem Unites.acyclic (whole : g.Whole) (whole' : other.Whole) (acyclic : g.Acyclic)
    (acyclic' : other.Acyclic) : union.Acyclic := by
  intro name cycle
  rcases unites.transGen_cases whole whole' cycle with one | ⟨p, q, two, from_p, to_q⟩
  · exact acyclic name one
  · obtain rfl : p = q := renamed_injective stem (from_p.trans to_q.symm)
    exact acyclic' p two

theorem Unites.sound_left (sound : g.Sound n) : union.Sound n where
  present := fun p takes => unites.has_left (sound.present p takes)
  source := sound.source
  sink := sound.sink

theorem Unites.sound_right (sound : other.Sound n) : union.Sound (renamedNode stem n) where
  present := by
    intro p takes
    obtain ⟨q, takes', rfl⟩ := List.mem_map.1 takes
    exact unites.has_right (sound.present q takes')
  source := fun is_input => List.map_eq_nil_iff.2 (sound.source is_input)
  sink := fun is_output none => sound.sink is_output (List.map_eq_nil_iff.1 none)

/-- The union of two graphs that pass the checks passes them. -/
theorem Unites.validate (registered : g.Registered) (registered' : other.Registered)
    (registered_union : union.Registered) (valid : g.validate = true)
    (valid' : other.validate = true) : union.validate = true := by
  obtain ⟨acyclic, whole⟩ := unites.left.acyclic_and_whole_of_validate valid
  obtain ⟨acyclic', whole'⟩ := unites.right.acyclic_and_whole_of_validate valid'
  obtain ⟨_, fine⟩ := (unites.left.validate_iff registered).1 valid
  obtain ⟨_, fine'⟩ := (unites.right.validate_iff registered').1 valid'
  apply (unites.indexed.validate_iff registered_union).2
  refine ⟨unites.acyclic whole whole' acyclic acyclic', fun n member => ?_⟩
  rw [unites.nodes_eq, List.mem_append] at member
  rcases member with one | two
  · obtain ⟨sound, feeds⟩ := fine n one
    exact ⟨unites.sound_left sound, fun s listed => unites.has_left (feeds s listed)⟩
  · obtain ⟨m, member', rfl⟩ := List.mem_map.1 two
    obtain ⟨sound, feeds⟩ := fine' m member'
    refine ⟨unites.sound_right sound, fun s listed => ?_⟩
    obtain ⟨q, listed', rfl⟩ := List.mem_map.1 listed
    exact unites.has_right (feeds q listed')

end Unites

/-! ### The sides of a union -/

/-- A graph consists of these nodes, and these are its inputs and its outputs. -/
structure ConsistsOf (g : Graph) (ns : List Node) (inputs outputs : List String) : Prop where
  nodes_eq : g.nodes = ns
  inputs_eq : g.inputs = inputs
  outputs_eq : g.outputs = outputs

/-- The nodes of a graph that passes the checks have edges among each other only. -/
theorem Indexed.selfContained_of_validate (indexed : g.Indexed) (registered : g.Registered)
    (valid : g.validate = true) : SelfContained g.nodes := by
  obtain ⟨_, fine⟩ := (indexed.validate_iff registered).1 valid
  refine ⟨indexed.nodup_names, fun n member p takes => ?_, fun n member s feeds => ?_⟩
  · exact indexed.has_iff.1 ((fine n member).1.present p takes)
  · exact indexed.has_iff.1 ((fine n member).2 s feeds)

/-- New names leave them so. -/
theorem SelfContained.map_renamedNode (selfContained : SelfContained ns) (stem : Option String) :
    SelfContained (ns.map (renamedNode stem)) := by
  refine ⟨?_, fun n listed => ?_, fun n listed => ?_⟩ <;> rw [map_name_renamedNode]
  · exact selfContained.nodup.map (renamed_injective stem)
  · obtain ⟨m, listed', rfl⟩ := List.mem_map.1 listed
    exact List.map_subset _ (selfContained.inputs m listed')
  · obtain ⟨m, listed', rfl⟩ := List.mem_map.1 listed
    exact List.map_subset _ (selfContained.outputs m listed')

/-- Such nodes can be cut out. -/
theorem Consistent.consistsOf_subgraph {order : List String} (consistent : g.Consistent order)
    (inside : ns ⊆ g.nodes) (selfContained : SelfContained ns) :
    (g.subgraph (ns.map Node.name)).ConsistsOf ns (ofKind .input ns) (ofKind .output ns) := by
  have nodes_eq := consistent.indexed.nodes_subgraph_of_selfContained inside selfContained
  have registered := (consistent.subgraph (ns.map Node.name)).registered
  refine ⟨nodes_eq, ?_, ?_⟩
  · rw [registered.inputs_eq, nodes_eq]
  · rw [registered.outputs_eq, nodes_eq]

/-- **Graphs side by side.** Two graphs that pass the checks have no union under a stem if and only
if the stem gives a node of the second one a name that the first one has; the first such name is
reported. Their union passes the checks; its nodes are those of the first graph, as they are, and
then those of the second one, with all their names behind the stem, and so are its inputs and its
outputs; and a restriction to the names of either side consists of just that side. -/
theorem merge_side_by_side (one : g.Maintained) (two : other.Maintained)
    (valid : g.validate = true) (valid' : other.validate = true) (stem : Option String) :
    ((∃ e, g.merge other stem = .error e) ↔
      ∃ name, other.has name = true ∧ g.has (renamed stem name) = true) ∧
    (∀ e, g.merge other stem = .error e →
      ∃ name, (other.names.map (renamed stem)).find? g.has = some name ∧
        e = .graph (.mergeCollision other.name name)) ∧
    ∀ union, g.merge other stem = .ok union →
      union.validate = true ∧
      union.ConsistsOf (g.nodes ++ other.nodes.map (renamedNode stem))
        (g.inputs ++ other.inputs.map (renamed stem))
        (g.outputs ++ other.outputs.map (renamed stem)) ∧
      (union.subgraph g.names).ConsistsOf g.nodes g.inputs g.outputs ∧
      (union.subgraph (other.names.map (renamed stem))).ConsistsOf
        (other.nodes.map (renamedNode stem)) (other.inputs.map (renamed stem))
        (other.outputs.map (renamed stem)) := by
  obtain ⟨order, consistent⟩ := one.exists_consistent
  obtain ⟨order', consistent'⟩ := two.exists_consistent
  have indexed := consistent.indexed
  have indexed' := consistent'.indexed
  refine ⟨indexed.exists_merge_eq_error_iff indexed', fun e failed =>
    (indexed.merge_eq_error_iff indexed').1 failed, fun union merged => ?_⟩
  have consistent_union := consistent.merge consistent' merged
  have unites := unites_of_merge indexed indexed' merged
  have left := indexed.selfContained_of_validate consistent.registered valid
  have right := indexed'.selfContained_of_validate consistent'.registered valid'
  refine ⟨?_, ⟨nodes_union merged, ?_, ?_⟩, ?_, ?_⟩
  · exact unites.validate consistent.registered consistent'.registered consistent_union.registered
      valid valid'
  · rw [union_eq merged]
  · rw [union_eq merged]
  · rw [consistent.registered.inputs_eq, consistent.registered.outputs_eq]
    apply consistent_union.consistsOf_subgraph _ left
    rw [unites.nodes_eq]
    exact List.subset_append_left _ _
  · rw [consistent'.registered.inputs_eq, consistent'.registered.outputs_eq,
      ← ofKind_renamedNode, ← ofKind_renamedNode, names, ← map_name_renamedNode]
    apply consistent_union.consistsOf_subgraph _ (right.map_renamedNode stem)
    rw [unites.nodes_eq]
    exact List.subset_append_right _ _

/-- An input, an operation on it, and an output. -/
def pipeline : List Node :=
  [{ name := "x", kind := .input, tensor := some (.empty ⟨[2, 3]⟩ .float32) },
    { name := "r", kind := .op, operation := some { kind := .relu }, inputs := ["x"] },
    { name := "y", kind := .output, inputs := ["r"] }]

theorem merge_pipeline : ∃ g union, pipeline.foldlM add (empty (.text "g")) = .ok g ∧
    g.Maintained ∧ g.validate = true ∧
    g.merge g none = .error (.graph (.mergeCollision (.text "g") "x")) ∧
    g.merge g (some "b") = .ok union ∧ union.validate = true ∧
    union.inputs = ["x", "b_x"] ∧ (union.subgraph ["x", "r", "y"]).nodes = g.nodes ∧
    (union.subgraph ["b_x", "b_r", "b_y"]).outputs = ["b_y"] := by
  obtain ⟨g, made⟩ : ∃ g, pipeline.foldlM add (empty (.text "g")) = .ok g := ⟨_, rfl⟩
  have maintained : g.Maintained := (Maintained.empty _).foldlM_add made
  obtain ⟨union, merged, valid, has, title, names_eq, inputs_eq, outputs_eq, first⟩ :
      ∃ union, g.merge g (some "b") = .ok union ∧ g.validate = true ∧ g.has "x" = true ∧
        g.name = .text "g" ∧ g.names = ["x", "r", "y"] ∧ g.inputs = ["x"] ∧ g.outputs = ["y"] ∧
        (g.names.map (renamed none)).find? g.has = some "x" := by
    cases made
    exact ⟨_, rfl, rfl, rfl, rfl, rfl, rfl, rfl, rfl⟩
  obtain ⟨collision_iff, reported, _⟩ := merge_side_by_side maintained maintained valid valid none
  obtain ⟨e, failed⟩ := collision_iff.2 ⟨"x", has, has⟩
  obtain ⟨name, taken, rfl⟩ := reported e failed
  obtain rfl : "x" = name := Option.some.inj (first.symm.trans taken)
  obtain ⟨_, _, united⟩ := merge_side_by_side maintained maintained valid valid (some "b")
  obtain ⟨valid_union, whole, left, right⟩ := united union merged
  rw [inputs_eq] at whole
  rw [names_eq] at left right
  rw [outputs_eq] at right
  rw [title] at failed
  exact ⟨g, union, made, maintained, valid, failed, merged, valid_union, whole.inputs_eq,
    left.nodes_eq, right.outputs_eq⟩

end TensorGraph.Graph
