import Mathlib
import TensorGraph.Proofs.Document.Reload

/-!
What a round trip through a document keeps. All that the nodes hold comes back, so the checks find
the same and types are inferred alike; the order in which nodes are sorted is kept too. Only the
order of successors and of graph outputs may change, and only once: what is written of a reloaded
graph stays as it is however often it is read back.
-/

namespace TensorGraph.Document

open TensorGraph.Graph

variable {g g' : Graph} {n m : Node}

/-! ### Checks and types -/

section Reloaded

variable (reloaded : Reloaded g g') (indexed : g.Indexed) (acyclic : g.Acyclic)

include reloaded indexed acyclic

/-- The checks find the same in both graphs. -/
theorem Reloaded.validate_eq (tidy : g.Tidy) : g'.validate = g.validate :=
  SameNodes.validate_eq (reloaded.node?_rel indexed acyclic) tidy.checkable reloaded.tidy.checkable

theorem Reloaded.addType_eq (setting : Option String) : addType setting g' = addType setting g := by
  funext types name
  have relation := reloaded.node?_rel indexed acyclic name
  rw [addType, addType]
  generalize g.node? name = node, g'.node? name = node' at relation
  cases relation with
  | none => rfl
  | some same => simp only [same.typeOf_eq]

/-- The types of both graphs are inferred alike, down to the error where that fails. -/
theorem Reloaded.forwardTypes_eq (setting : Option String) :
    g'.forwardTypes setting = g.forwardTypes setting := by
  rw [forwardTypes, forwardTypes, reloaded.sorted_eq indexed acyclic,
    reloaded.addType_eq indexed acyclic]

end Reloaded

/-- **Round trip.** A graph without a cycle that additions of fresh nodes and removals have made,
and whose nodes have names, is written and read back as a graph of the same name and metadata with
the same nodes. The checks find the same in it, and its types are inferred alike. Through JSON text
it comes back as well, provided that the text of its document is read as that document. -/
theorem reload_same (edited : g.Edited) (named : ∀ n ∈ g.nodes, n.name ≠ "")
    (acyclic : g.Acyclic) :
    ∃ doc g', ofGraph g = .ok doc ∧ toGraph doc = .ok g' ∧
      g'.name = g.name ∧ g'.metadata = g.metadata ∧ (∀ name, g'.has name = g.has name) ∧
      (∀ name, Option.Rel SameNode (g.node? name) (g'.node? name)) ∧
      g'.validate = g.validate ∧
      (∀ setting, g'.forwardTypes setting = g.forwardTypes setting) ∧
      ∀ indent, (Json.render indent doc >>= Json.parse) = .ok doc →
        (toJson g indent >>= ofJson) = .ok g' := by
  have tidy := edited.tidy
  obtain ⟨doc, g', written, read, reloaded⟩ := exists_reloaded tidy.indexed named acyclic
  refine ⟨doc, g', written, read, reloaded.name_eq, reloaded.metadata_eq,
    reloaded.has_eq tidy.indexed acyclic, reloaded.node?_rel tidy.indexed acyclic,
    reloaded.validate_eq tidy.indexed acyclic tidy,
    reloaded.forwardTypes_eq tidy.indexed acyclic, fun indent faithful => ?_⟩
  obtain ⟨text, rendered, parsed⟩ := bind_eq_ok_iff.1 faithful
  rw [toJson, written, ok_bind, rendered, ok_bind, ofJson, parsed, ok_bind, read]

/-- A graph with an operation that was there before its input; another node has come and gone. -/
def revised : Except Error Graph := do
  let attributes : Attributes := .ofEntries [("k", .bool true), ("axes", .ints [1, -1])]
  let g ← (Graph.empty (.text "g")).add
    { name := "b", kind := .op, operation := some { kind := .relu, attributes },
      inputs := ["a", "a", "z"] }
  let g ← g.add { name := "y", kind := .output, inputs := ["b"] }
  let g ← (g.remove "y").add { name := "a", kind := .input, tensor := some (.empty ⟨[2]⟩ .int8) }
  return g.setMeta "m" (.text "v")

theorem exists_revised : ∃ g, revised = .ok g ∧ g.Edited ∧ (∀ n ∈ g.nodes, n.name ≠ "") ∧
    g.sorted = .ok ["a", "b"] ∧ g.Acyclic := by
  obtain ⟨g, made⟩ : ∃ g, revised = .ok g := ⟨_, rfl⟩
  have edited : g.Edited := by
    obtain ⟨first, one, made'⟩ := bind_eq_ok_iff.1 made
    obtain ⟨second, two, made''⟩ := bind_eq_ok_iff.1 made'
    obtain ⟨third, three, last⟩ := bind_eq_ok_iff.1 made''
    cases last
    exact .setMeta (.add (.remove (.add (.add (.empty _) rfl one) rfl two) "y") rfl three) _ _
  have names_eq : g.names = ["b", "a"] := by
    cases made
    rfl
  have order : g.sorted = .ok ["a", "b"] := by
    cases made
    rfl
  refine ⟨g, made, edited, fun n member nameless => ?_, order,
    (edited.tidy.indexed.sorted_eq_ok_iff.1 order).1⟩
  have listed : n.name ∈ g.names := mem_names.2 ⟨n, member, rfl⟩
  simp [names_eq, nameless] at listed

theorem reload_revised :
    (∃ g g', revised = .ok g ∧ (ofGraph g >>= toGraph) = .ok g' ∧
      g'.validate = g.validate ∧ ∀ setting, g'.forwardTypes setting = g.forwardTypes setting) ∧
    ∃ g', (toJson (.empty (.text "g")) none >>= ofJson) = .ok g' ∧ g'.name = .text "g" := by
  constructor
  · obtain ⟨g, made, edited, named, _, acyclic⟩ := exists_revised
    obtain ⟨doc, g', written, read, _, _, _, _, checks, types, _⟩ :=
      reload_same edited named acyclic
    exact ⟨g, g', made, by rw [written, ok_bind, read], checks, types⟩
  · have edited : (Graph.empty (.text "g")).Edited := .empty _
    have order : (Graph.empty (.text "g")).sorted = .ok [] := rfl
    have acyclic := (edited.tidy.indexed.sorted_eq_ok_iff.1 order).1
    obtain ⟨doc, g', written, read, name_eq, _, _, _, _, _, through⟩ :=
      reload_same edited (by simp [nodes, Graph.empty]) acyclic
    refine ⟨g', through none ?_, name_eq⟩
    cases written
    cbv

/-! ### Writing again -/

/-- What is written of a graph whose nodes stand in sorted order is written again of the graph that
is read back. -/
theorem Reloaded.ofGraph_eq (reloaded : Reloaded g g') (tidy : g.Tidy) (acyclic : g.Acyclic)
    (placed : g.placement = g.names) : ofGraph g' = ofGraph g := by
  have indexed := tidy.indexed
  have nodes : List.Forall₂ SameNode g.nodes g'.nodes := by
    have all := reloaded.nodes
    rwa [placed, indexed.existing_names] at all
  have edges : List.Forall₂ SameEdges g.nodes g'.nodes := nodes.imp fun _ _ same => same.toSameEdges
  have records : (g'.existing g.placement).map nodeRecord =
      (g.existing g.placement).map nodeRecord := by
    rw [← reloaded.names_eq indexed, reloaded.tidy.indexed.existing_names,
      reloaded.names_eq indexed, placed, indexed.existing_names]
    -- Successors agree as well here: in either graph they are all takers, in the same order.
    refine map_of_forall₂ nodes fun n member m member' same => nodeRecord_eq same ?_
    rw [reloaded.outputs_eq indexed acyclic member', takers_of_forall₂ edges, same.name_eq,
      ← tidy.linked.outputs_eq (indexed.forward_of_placement placed) member]
  have inputs : g'.inputs = g.inputs := by
    rw [reloaded.tidy.registered.inputs_eq, ofKind_of_forall₂ nodes, ← tidy.registered.inputs_eq]
  have outputs : g'.outputs = g.outputs := by
    rw [reloaded.tidy.registered.outputs_eq, ofKind_of_forall₂ nodes,
      ← tidy.registered.outputs_eq]
  rw [ofGraph, ofGraph, reloaded.sorted_eq indexed acyclic, indexed.sorted_eq acyclic, ok_bind,
    ok_bind, entriesOf, entriesOf, records, inputs, outputs, reloaded.name_eq,
    reloaded.metadata_eq]

/-- **Stability.** Under the same conditions the graph that is read back is sorted in the order of
the first one, and from the second document on nothing changes any more. -/
theorem reload_stable (edited : g.Edited) (named : ∀ n ∈ g.nodes, n.name ≠ "")
    (acyclic : g.Acyclic) :
    ∃ order doc₁ g₁ doc₂ g₂, g.sorted = .ok order ∧
      ofGraph g = .ok doc₁ ∧ toGraph doc₁ = .ok g₁ ∧ g₁.sorted = .ok order ∧
      ofGraph g₁ = .ok doc₂ ∧ toGraph doc₂ = .ok g₂ ∧ ofGraph g₂ = .ok doc₂ := by
  have indexed := edited.tidy.indexed
  obtain ⟨doc₁, g₁, written₁, read₁, reloaded₁⟩ := exists_reloaded indexed named acyclic
  have tidy₁ := reloaded₁.tidy
  obtain ⟨acyclic₁, placement_eq⟩ := reloaded₁.acyclic_and_placement_eq indexed acyclic
  have names_eq := reloaded₁.names_eq indexed
  have named₁ : ∀ m ∈ g₁.nodes, m.name ≠ "" := by
    intro m member
    obtain ⟨n, origin, same⟩ := reloaded₁.exists_same_of_mem_nodes indexed member
    rw [same.name_eq]
    exact named n origin
  obtain ⟨doc₂, g₂, written₂, read₂, reloaded₂⟩ := exists_reloaded tidy₁.indexed named₁ acyclic₁
  have again := reloaded₂.ofGraph_eq tidy₁ acyclic₁ (placement_eq.trans names_eq.symm)
  exact ⟨g.placement, doc₁, g₁, doc₂, g₂, indexed.sorted_eq acyclic, written₁, read₁,
    (reloaded₁.sorted_eq indexed acyclic).trans (indexed.sorted_eq acyclic), written₂, read₂,
    again.trans written₂⟩

theorem reload_revised_stable : ∃ g doc₁ g₁ doc₂ g₂, revised = .ok g ∧
    ofGraph g = .ok doc₁ ∧ toGraph doc₁ = .ok g₁ ∧ g₁.sorted = .ok ["a", "b"] ∧
    ofGraph g₁ = .ok doc₂ ∧ toGraph doc₂ = .ok g₂ ∧ ofGraph g₂ = .ok doc₂ := by
  obtain ⟨g, made, edited, named, order, acyclic⟩ := exists_revised
  obtain ⟨order', doc₁, g₁, doc₂, g₂, sorted, written, read, kept, again⟩ :=
    reload_stable edited named acyclic
  obtain rfl : ["a", "b"] = order' := Except.ok.inj (order.symm.trans sorted)
  exact ⟨g, doc₁, g₁, doc₂, g₂, made, written, read, kept, again⟩

end TensorGraph.Document
