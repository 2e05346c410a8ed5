import TensorGraph.Proofs.Graph.Calls
import TensorGraph.Proofs.Graph.Removal

/-!
Additions that are taken back. A node is told of a new successor and of nothing else, and the new
node has no successor but itself; so when it is removed again, no other node loses more than it has
gained, whoever names it in advance included. What is left may lie in other slots, if the removal
packs them, which nobody sees.
-/

namespace TensorGraph.Graph

variable {g g' : Graph} {n m : Node} {graphs : String → Graph}

/-- To be told of a new node and then of its removal changes nothing. -/
theorem detach_feed (fresh : n.outputs = []) (other : m.name ≠ n.name)
    (unlisted : n.name ∉ m.outputs) : detach (feed n n) (feed n m) = m := by
  have untold : m.name ∉ (feed n n).outputs := by
    by_cases self : n.name ∈ n.inputs <;> simp [feed, fresh, self, other]
  have outputs_eq : (detach (feed n n) (feed n m)).outputs = m.outputs := by
    by_cases taken : m.name ∈ n.inputs
    · have struck : without n.name (m.outputs ++ [n.name]) = m.outputs := by
        rw [without, List.filter_append, ← without, without_of_not_mem unlisted]
        simp
      simp [detach, feed, taken, struck]
    · simp [detach, feed, taken]
  have inputs_eq : (detach (feed n n) (feed n m)).inputs = m.inputs := if_neg untold
  calc detach (feed n n) (feed n m)
      = { m with
          inputs := (detach (feed n n) (feed n m)).inputs
          outputs := (detach (feed n n) (feed n m)).outputs } := rfl
    _ = m := by rw [inputs_eq, outputs_eq]

theorem Tidy.nodes_remove_add (tidy : g.Tidy) (fresh : n.outputs = []) (added : g.add n = .ok g') :
    (g'.remove n.name).nodes = g.nodes := by
  have indexed := tidy.indexed
  have new := indexed.fresh_of_add added
  have nodes_eq := indexed.nodes_add added
  have member : feed n n ∈ g'.nodes := by
    rw [nodes_eq]
    exact List.mem_map_of_mem (List.mem_append_right _ List.mem_cons_self)
  have old : ∀ m ∈ g.nodes, m.name ≠ n.name := by
    rintro m also same
    exact new (mem_names.2 ⟨m, also, same⟩)
  have left : g'.nodes.filter (·.name ≠ n.name) = g.nodes.map (feed n) := by
    rw [nodes_eq, List.map_append, List.filter_append, List.filter_eq_self.2, List.map_singleton]
    · simp
    · intro m fed
      obtain ⟨m, also, rfl⟩ := List.mem_map.1 fed
      exact decide_eq_true (old m also)
  have back : ∀ m ∈ g.nodes, detach (feed n n) (feed n m) = m := by
    intro m also
    apply detach_feed fresh (old m also)
    exact fun listed => new (tidy.linked.mem_of_mem_outputs also listed)
  have removed := (indexed.add added).nodes_remove member
  rw [name_feed, left, List.map_map] at removed
  rw [removed]
  exact (List.map_congr_left back).trans (List.map_id _)

/-- What an addition and the removal of the same node leave differs at most in slots. -/
theorem Tidy.alike_remove_add (tidy : g.Tidy) (fresh : n.outputs = []) (added : g.add n = .ok g') :
    Alike g (g'.remove n.name) := by
  have tidy' := tidy.add fresh added
  have registered := (tidy'.remove n.name).registered
  have nodes_eq := tidy.nodes_remove_add fresh added
  have kept : g'.name = g.name ∧ g'.metadata = g.metadata := by
    rw [tidy.indexed.add_eq (tidy.indexed.fresh_of_add added), Except.ok.injEq] at added
    rw [← added, name_register, metadata_register]
    exact ⟨rfl, rfl⟩
  refine ⟨tidy.indexed, (tidy'.remove n.name).indexed, ?_, nodes_eq, ?_, ?_, ?_⟩
  · rw [tidy'.remove_eq, ← kept.1]
  · rw [registered.inputs_eq, nodes_eq, tidy.registered.inputs_eq]
  · rw [registered.outputs_eq, nodes_eq, tidy.registered.outputs_eq]
  · rw [tidy'.remove_eq, ← kept.2]

/-! ### Runs of calls -/

/-- A call that fails is reported, and the calls behind it see what they would have seen without
it. -/
theorem answers_cons_of_error {call : Call} {calls : List Call} {e : Error}
    (failed : call.result graphs = .error e) :
    answers (call :: calls) graphs = .error e :: answers calls graphs := by
  rw [answers, failed]

/-- **Additions can be taken back.** In every graph that additions and removals lead to, a node of a
new name, whatever inputs it has and whoever names it already, can be added, and once it is removed
again no query tells the graph from what it was before, nor does any run of calls on this and other
graphs. A node whose name is there is not added, and every run of calls behind that sees what it
would have seen without it. -/
theorem remove_add_restores (edited : g.Edited) (n : Node) :
    (n.outputs = [] → g.has n.name = false → ∃ g', g.add n = .ok g' ∧
      (g'.remove n.name).view = g.view ∧
      ∀ (calls : List Call) (graphs : String → Graph) (mine : String),
        (∀ other, (graphs other).Reached) →
          answers calls (Function.update graphs mine (g'.remove n.name)) =
            answers calls (Function.update graphs mine g)) ∧
    (g.has n.name = true → g.add n = .error (.graph (.duplicateNode n.name)) ∧
      ∀ (calls : List Call) (graphs : String → Graph) (mine : String), graphs mine = g →
        answers (.add mine n :: calls) graphs =
          .error (.graph (.duplicateNode n.name)) :: answers calls graphs) := by
  have tidy := edited.tidy
  refine ⟨fun fresh absent => ?_, fun present => ?_⟩
  · have new : n.name ∉ g.names := by
      rw [← tidy.indexed.has_iff, absent]
      exact Bool.false_ne_true
    have added := tidy.indexed.add_eq new
    have alike := tidy.alike_remove_add fresh added
    refine ⟨_, added, alike.view_eq, fun calls graphs mine reached => answers_eq calls ?_⟩
    exact alike_update alike (fun other => (reached other).indexed.alike_self) mine
  · have failed : g.add n = .error (.graph (.duplicateNode n.name)) := if_pos present
    refine ⟨failed, fun calls graphs mine held => answers_cons_of_error ?_⟩
    rw [Call.result, held, failed]

/-- A node that takes inputs from itself and from a missing one, in a graph with a vacant slot. -/
def awaiting : Except Error Graph := do
  let g ← (empty (.text "g")).add { name := "b", kind := .op, inputs := ["a", "b", "a"] }
  let g ← g.add { name := "c", kind := .input }
  return g.remove "c"

/-- The missing input, which takes inputs from the node that waits for it, and from itself. -/
def awaited : Node := { name := "a", kind := .input, inputs := ["b", "a", "z", "b"] }

/-- The removal packs the slots. -/
theorem remove_add_restores_awaited : ∃ g g', awaiting = .ok g ∧ g.Edited ∧
    g.slots.length = 2 ∧ g.add awaited = .ok g' ∧ g'.successors "b" = ["a"] ∧
    (g'.remove "a").slots.length = 1 ∧ (g'.remove "a").view = g.view ∧
    answers [.add "g" awaited] (Function.update (fun title => empty (.text title)) "g"
        (g'.remove "a")) =
      answers [.add "g" awaited] (Function.update (fun title => empty (.text title)) "g" g) ∧
    g.add { name := "b", kind := .const } = .error (.graph (.duplicateNode "b")) ∧
    answers [.add "g" { name := "b", kind := .const }, .remove "g" "b"] (fun _ => g) =
      .error (.graph (.duplicateNode "b")) :: answers [.remove "g" "b"] fun _ => g := by
  obtain ⟨g, made⟩ : ∃ g, awaiting = .ok g := ⟨_, rfl⟩
  have edited : g.Edited := by
    obtain ⟨first, one, made'⟩ := bind_eq_ok_iff.1 made
    obtain ⟨second, two, made'⟩ := bind_eq_ok_iff.1 made'
    cases made'
    exact .remove (.add (.add (.empty _) rfl one) rfl two) "c"
  obtain ⟨length_eq, absent, present, later⟩ : g.slots.length = 2 ∧ g.has "a" = false ∧
      g.has "b" = true ∧ ∀ g', g.add awaited = .ok g' →
        g'.successors "b" = ["a"] ∧ (g'.remove "a").slots.length = 1 := by
    cases made
    refine ⟨rfl, rfl, rfl, ?_⟩
    rintro g' ⟨rfl⟩
    exact ⟨rfl, rfl⟩
  obtain ⟨g', added, view_eq, answers_eq⟩ := (remove_add_restores edited awaited).1 rfl absent
  obtain ⟨failed, ignored⟩ :=
    (remove_add_restores edited { name := "b", kind := .const }).2 present
  obtain ⟨told, packed⟩ := later g' added
  exact ⟨g, g', made, edited, length_eq, added, told, packed, view_eq,
    answers_eq _ _ "g" fun title => .empty (.text title), failed, ignored _ _ "g" rfl⟩

end TensorGraph.Graph
