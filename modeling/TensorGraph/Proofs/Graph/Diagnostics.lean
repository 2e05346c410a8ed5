import TensorGraph.Proofs.Document.Reordering
import TensorGraph.Proofs.Graph.Restriction

/-!
What the structural checks report after any history. Successor lists may lack nodes that take an
input: a node may come before its input, and a union brings together nodes that never heard of each
other. What they list is never wrong, though, so no check of them ever fails, and the lines that are
left tell of cycles, of inputs that do not exist, and of input and output nodes.
-/

namespace TensorGraph.Graph

variable {g g' : Graph} {n m : Node} {name : String} {ns ms : List Node}

/-- A graph that additions of fresh nodes, removals, copies, restrictions, unions and loads lead to.
Operations that fail make no graph. -/
inductive Assembled : Graph → Prop where
  | empty (name : Value) : Assembled (.empty name)
  | add {g g' : Graph} {n : Node} (before : Assembled g) (fresh : n.outputs = [])
      (added : g.add n = .ok g') : Assembled g'
  | remove {g : Graph} (before : Assembled g) (name : String) : Assembled (g.remove name)
  | clone {g : Graph} (before : Assembled g) : Assembled g.clone
  | subgraph {g : Graph} (before : Assembled g) (names : List String) :
      Assembled (g.subgraph names)
  | merge {g other union : Graph} {stem : Option String} (one : Assembled g)
      (two : Assembled other) (merged : g.merge other stem = .ok union) : Assembled union
  | load {g : Graph} {doc : Value} (loaded : Document.toGraph doc = .ok g) : Assembled g

theorem Assembled.exists_history (assembled : g.Assembled) : ∃ order, g.History order := by
  induction assembled with
  | empty name => exact ⟨_, .empty name⟩
  | add _ _ added ih =>
      obtain ⟨_, history⟩ := ih
      exact ⟨_, history.add added⟩
  | remove _ name ih =>
      obtain ⟨_, history⟩ := ih
      exact ⟨_, history.remove name⟩
  | clone _ ih =>
      obtain ⟨_, history⟩ := ih
      exact ⟨_, history.clone⟩
  | subgraph _ names ih =>
      obtain ⟨_, history⟩ := ih
      exact ⟨_, history.subgraph names⟩
  | merge _ _ merged ih ih' =>
      obtain ⟨_, history⟩ := ih
      obtain ⟨_, history'⟩ := ih'
      exact ⟨_, history.merge history' merged⟩
  | load loaded =>
      obtain ⟨_, opened, _⟩ := bind_eq_ok_iff.1 loaded
      exact ⟨_, .load opened loaded⟩

/-! ### Successors that are listed -/

/-- Whoever is listed among the successors of a node takes an input from it. -/
def Backed (ns : List Node) : Prop := ∀ n ∈ ns, ∀ s ∈ n.outputs, s ∈ takers n.name ns

theorem Backed.append (backed : Backed ns) (backed' : Backed ms) : Backed (ns ++ ms) := by
  intro n member s listed
  rw [takers_append, List.mem_append]
  rcases List.mem_append.1 member with first | second
  · exact .inl (backed n first s listed)
  · exact .inr (backed' n second s listed)

theorem Backed.append_feed (backed : Backed ns) (fresh : n.outputs = []) :
    Backed ((ns ++ [n]).map (feed n)) := by
  unfold Backed
  rw [List.forall_mem_map]
  intro m member s listed
  rw [takers_map (fun _ => name_feed) (fun _ => by rw [inputs_feed]), name_feed, takers_append]
  have before (old : s ∈ m.outputs) : s ∈ takers m.name ns := by
    rcases List.mem_append.1 member with there | new
    · exact backed m there s old
    · rw [List.mem_singleton.1 new, fresh] at old
      cases old
  by_cases taken : m.name ∈ n.inputs
  · have old_or_new : s ∈ m.outputs ∨ s = n.name := by simpa [feed, taken] using listed
    rcases old_or_new with old | rfl
    · exact List.mem_append_left _ (before old)
    · exact List.mem_append_right _ (mem_takers.2 ⟨n, List.mem_cons_self, taken, rfl⟩)
  · exact List.mem_append_left _ (before (by simpa [feed, taken] using listed))

theorem Backed.map_renamedNode (backed : Backed ns) (stem : Option String) :
    Backed (ns.map (renamedNode stem)) := by
  unfold Backed
  rw [List.forall_mem_map]
  intro n member s listed
  obtain ⟨taker, fed, rfl⟩ := List.mem_map.1 listed
  obtain ⟨m, member', takes, rfl⟩ := mem_takers.1 (backed n member taker fed)
  exact mem_takers.2
    ⟨renamedNode stem m, List.mem_map_of_mem member', List.mem_map_of_mem takes, rfl⟩

/-- The node that is gone is struck off wherever it was listed, since it took an input there. -/
theorem Backed.filter_detach (backed : Backed ns) (unique : ∀ m ∈ ns, m.name = n.name → m = n) :
    Backed ((ns.filter (·.name ≠ n.name)).map (detach n)) := by
  unfold Backed
  rw [List.forall_mem_map]
  intro m left s listed
  obtain ⟨member, other⟩ : m ∈ ns ∧ m.name ≠ n.name := by simpa using left
  obtain ⟨listed, kept⟩ : s ∈ m.outputs ∧ s ≠ n.name := by
    by_cases taken : m.name ∈ n.inputs
    · simpa [detach, taken] using listed
    · have listed : s ∈ m.outputs := by simpa [detach, taken] using listed
      refine ⟨listed, ?_⟩
      rintro rfl
      obtain ⟨k, k_mem, takes, named⟩ := mem_takers.1 (backed m member _ listed)
      rw [unique k k_mem named] at takes
      exact taken takes
  rw [name_detach, takers_detach other, mem_without]
  exact ⟨backed m member s listed, kept⟩

theorem Indexed.backed_subgraph (indexed : g.Indexed) (backed : Backed g.nodes)
    (names : List String) : Backed (g.subgraph names).nodes := by
  rw [nodes_subgraph]
  unfold Backed
  rw [List.forall_mem_map]
  intro n chosen s listed
  obtain ⟨member, selected⟩ := indexed.mem_existing_iff.1 chosen
  obtain ⟨listed, taker_selected⟩ := List.mem_filter.1 listed
  obtain ⟨m, member', takes, rfl⟩ := mem_takers.1 (backed n member s listed)
  refine mem_takers.2 ⟨confine (g.selection names) m, List.mem_map_of_mem ?_, ?_, rfl⟩
  · exact indexed.mem_existing_iff.2 ⟨member', List.contains_iff_mem.1 taker_selected⟩
  · exact List.mem_filter.2 ⟨takes, List.contains_iff_mem.2 selected⟩

theorem backed_of_toGraph {doc : Value} (loaded : Document.toGraph doc = .ok g) :
    Backed g.nodes :=
  fun n member s => ((Document.tied_of_toGraph loaded).mem_outputs_iff n member s).1

theorem Assembled.indexed (assembled : g.Assembled) : g.Indexed := by
  obtain ⟨_, history⟩ := assembled.exists_history
  exact history.consistent.indexed

/-- Every history leaves only successors that take an input. -/
theorem Assembled.backed (assembled : g.Assembled) : Backed g.nodes := by
  induction assembled with
  | empty name => exact fun _ member => nomatch member
  | add before fresh added ih =>
      rw [before.indexed.nodes_add added]
      exact ih.append_feed fresh
  | @remove g before name ih =>
      by_cases present : name ∈ g.names
      · obtain ⟨n, member, rfl⟩ := mem_names.1 present
        rw [before.indexed.nodes_remove member]
        exact ih.filter_detach fun m also same => before.indexed.eq_of_name also member same
      · rwa [before.indexed.remove_of_not_mem present]
  | clone _ ih => rwa [nodes_clone]
  | subgraph before names ih => exact before.indexed.backed_subgraph ih names
  | merge _ _ merged ih ih' =>
      rw [nodes_union merged]
      exact ih.append (ih'.map_renamedNode _)
  | load loaded => exact backed_of_toGraph loaded

theorem Assembled.checkable (assembled : g.Assembled) : g.Checkable := by
  obtain ⟨_, history⟩ := assembled.exists_history
  refine ⟨assembled.indexed, history.consistent.registered, fun n member s listed => ?_⟩
  obtain ⟨m, member', _, rfl⟩ := mem_takers.1 (assembled.backed n member s listed)
  exact assembled.indexed.has_of_mem member'

/-! ### Lines -/

/-- The inputs that nodes name and that do not exist, each with its node, as often as they are
named. -/
def absentInputs (g : Graph) : List (String × String) :=
  g.nodes.flatMap fun n => (n.inputs.filter fun p => !g.has p).map fun p => (n.name, p)

def absentLine (mention : String × String) : String :=
  "node '" ++ mention.1 ++ "' references non-existent input '" ++ mention.2 ++ "'"

/-- Where successors exist, all lines are told by the kinds and the inputs of the nodes. -/
theorem Checkable.violations_eq (checkable : g.Checkable) : g.violations =
    (if g.hasCycle then ["graph contains cycles"] else []) ++ g.absentInputs.map absentLine ++
      (ofKind .input (g.nodes.filter fun n => !n.inputs.isEmpty)).map
        (fun name => "input node '" ++ name ++ "' has inputs") ++
      (ofKind .output (g.nodes.filter fun n => n.inputs.isEmpty)).map
        (fun name => "output node '" ++ name ++ "' has no inputs") := by
  have dangling : g.nodes.flatMap g.danglingOf = g.absentInputs.map absentLine := by
    rw [absentInputs, List.map_flatMap]
    apply List.flatMap_congr
    intro n member
    have settled : (n.outputs.filter fun s => !g.has s) = [] :=
      List.filter_eq_nil_iff.2 fun s listed => by simp [checkable.settled n member s listed]
    rw [danglingOf, settled, List.map_nil, List.append_nil, List.map_map]
    exact List.map_congr_left fun p _ => String.toList_inj.1 (by simp [absentLine])
  rw [violations, dangling, fedInputs, idleOutputs, checkable.registered.inputs_eq,
    checkable.registered.outputs_eq, checkable.indexed.filter_ofKind,
    checkable.indexed.filter_ofKind]

theorem count_absentInputs (indexed : g.Indexed) (member : n ∈ g.nodes) (p : String) :
    g.absentInputs.count (n.name, p) = if g.has p then 0 else n.inputs.count p := by
  let mentions (m : Node) : List (String × String) :=
    (m.inputs.filter fun p => !g.has p).map fun p => (m.name, p)
  have of_others {ns : List Node} (apart : ∀ m ∈ ns, m.name ≠ n.name) :
      (ns.flatMap mentions).count (n.name, p) = 0 := by
    rw [List.count_eq_zero, List.mem_flatMap]
    rintro ⟨m, among, mentioned⟩
    obtain ⟨_, _, same⟩ := List.mem_map.1 mentioned
    exact apart m among (Prod.mk.inj same).1
  have of_node : (mentions n).count (n.name, p) = if g.has p then 0 else n.inputs.count p := by
    rw [List.count_map_of_injective _ _ (Prod.mk_right_injective n.name)]
    split
    · next present =>
      rw [List.count_eq_zero, List.mem_filter]
      simp [present]
    · next absent => exact List.count_filter (by simpa using absent)
  have nodup := indexed.nodup_names
  obtain ⟨before, behind, split⟩ := List.append_of_mem member
  rw [names, split, List.map_append, List.map_cons, List.nodup_append, List.nodup_cons] at nodup
  have earlier : ∀ m ∈ before, m.name ≠ n.name := fun m among same =>
    nodup.2.2 _ (List.mem_map_of_mem among) _ List.mem_cons_self same
  have later : ∀ m ∈ behind, m.name ≠ n.name := fun m among same =>
    nodup.2.1.1 (same ▸ List.mem_map_of_mem among)
  rw [absentInputs, split, List.flatMap_append, List.flatMap_cons, List.count_append,
    List.count_append, of_others earlier, of_others later, of_node, Nat.zero_add, Nat.add_zero]

/-- Whether a line begins with the word for a node. -/
def isAboutNode (line : String) : Bool := line.toList.take 6 = "node '".toList

theorem isAboutNode_append {front : String} (long : 6 ≤ front.toList.length) (rest : String) :
    isAboutNode (front ++ rest) = isAboutNode front := by
  rw [isAboutNode, String.toList_append, List.take_append_of_le_length long, isAboutNode]

theorem isAboutNode_absentLine (mention : String × String) :
    isAboutNode (absentLine mention) = true := by
  rw [absentLine, String.append_assoc, String.append_assoc, String.append_assoc,
    isAboutNode_append (by decide)]
  decide

/-- Of all lines, those about nodes are those about an input that does not exist. -/
theorem Checkable.filter_violations (checkable : g.Checkable) :
    g.violations.filter isAboutNode = g.absentInputs.map absentLine := by
  have cycles : (if g.hasCycle then ["graph contains cycles"] else []).filter isAboutNode = [] := by
    split <;> decide
  have absences : (g.absentInputs.map absentLine).filter isAboutNode =
      g.absentInputs.map absentLine :=
    List.filter_eq_self.2 (List.forall_mem_map.2 fun mention _ => isAboutNode_absentLine mention)
  have registered {front : String} (long : 6 ≤ front.toList.length)
      (other : isAboutNode front = false) (names : List String) (rest : String) :
      (names.map fun name => front ++ name ++ rest).filter isAboutNode = [] := by
    rw [List.filter_eq_nil_iff, List.forall_mem_map]
    intro name _
    rw [String.append_assoc, isAboutNode_append long, other]
    exact Bool.false_ne_true
  rw [checkable.violations_eq, List.filter_append, List.filter_append, List.filter_append, cycles,
    absences, registered (by decide) (by decide), registered (by decide) (by decide),
    List.nil_append, List.append_nil, List.append_nil]

/-- **What validation finds.** After any history of additions, removals, copies, restrictions,
unions and loads, the checks pass if and only if no node depends on itself, every input of every
node exists, input nodes have no inputs, and output nodes have some. Of the lines that they report,
those about nodes are one for each time that a node names an input that does not exist, in the order
of the nodes and of their inputs. -/
theorem validate_iff_and_absences (assembled : g.Assembled) :
    (∀ name, g.has name = true ↔ ∃ n ∈ g.nodes, n.name = name) ∧
    (g.validate = true ↔ g.Acyclic ∧ ∀ n ∈ g.nodes, g.Sound n) ∧
    g.violations.filter isAboutNode = g.absentInputs.map absentLine ∧
    (∀ n ∈ g.nodes, ∀ p, g.absentInputs.count (n.name, p) =
      if g.has p then 0 else n.inputs.count p) ∧
    ∀ mention ∈ g.absentInputs, g.has mention.1 = true := by
  have checkable := assembled.checkable
  have indexed := assembled.indexed
  refine ⟨fun name => indexed.has_iff.trans mem_names, checkable.validate_iff,
    checkable.filter_violations, fun n => count_absentInputs indexed, fun mention listed => ?_⟩
  obtain ⟨n, member, mentioned⟩ := List.mem_flatMap.1 listed
  obtain ⟨p, _, rfl⟩ := List.mem_map.1 mentioned
  exact indexed.has_of_mem member

/-- A node that names a missing input twice, and an input that a union brings. -/
def united : Except Error Graph := do
  let g ← (empty (.text "g")).add { name := "b", kind := .op, inputs := ["z", "a", "z"] }
  let other ← (empty (.text "h")).add { name := "a", kind := .input }
  g.merge other none

theorem validate_united : ∃ g, united = .ok g ∧ g.Assembled ∧
    g.violations = ["node 'b' references non-existent input 'z'",
      "node 'b' references non-existent input 'z'"] ∧
    g.absentInputs.count ("b", "z") = 2 ∧ g.absentInputs.count ("b", "a") = 0 ∧
    ¬ (g.Acyclic ∧ ∀ n ∈ g.nodes, g.Sound n) := by
  obtain ⟨g, made⟩ : ∃ g, united = .ok g := ⟨_, rfl⟩
  obtain ⟨first, one, made'⟩ := bind_eq_ok_iff.1 made
  obtain ⟨second, two, merged⟩ := bind_eq_ok_iff.1 made'
  have assembled : g.Assembled :=
    .merge (.add (.empty _) rfl one) (.add (.empty _) rfl two) merged
  obtain ⟨_, valid_iff, _, counts, _⟩ := validate_iff_and_absences assembled
  obtain ⟨n, member, named, inputs, lines, has_z, has_a⟩ : ∃ n ∈ g.nodes, n.name = "b" ∧
      n.inputs = ["z", "a", "z"] ∧ g.violations =
        ["node 'b' references non-existent input 'z'",
          "node 'b' references non-existent input 'z'"] ∧
      g.has "z" = false ∧ g.has "a" = true := by
    cases made
    exact ⟨_, List.mem_cons_self, rfl, rfl, by decide +kernel, rfl, rfl⟩
  have count_z := counts n member "z"
  have count_a := counts n member "a"
  rw [named, inputs, has_z] at count_z
  rw [named, inputs, has_a] at count_a
  refine ⟨g, made, assembled, lines, count_z, count_a, fun fine => ?_⟩
  rw [← valid_iff, validate, lines] at fine
  cases fine

end TensorGraph.Graph
