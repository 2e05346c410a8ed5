import TensorGraph.Proofs.Graph.Building
import TensorGraph.Proofs.Graph.Typing

/-!
Types that a builder stores, and types that are inferred for a whole graph. A call infers the type
of its node from the tensors that earlier nodes store. Where no type is given by hand, the stored
tensors are types that all nodes agree with; there is one solution only, so whole-graph inference
finds these tensors again, in whatever order it visits the nodes.
-/

namespace TensorGraph

open TensorGraph.Graph

variable {g g' : Graph} {b : Builder} {n m : Node} {form : Node → Prop} {op : Operation}
  {setting : Option String} {s : Shape} {r : Reference}

/-! ### Results -/

/-- The setting decides the element type of operations without inputs only, and these have no
result. -/
theorem Operation.result_eq_ok (made : Operation.result setting op = .ok r)
    (setting' : Option String) : Operation.result setting' op = .ok r := by
  obtain ⟨shape, shape_eq, made⟩ := bind_eq_ok_iff.1 made
  obtain ⟨given, first, rest, present⟩ := exists_presentInputs shape_eq
  have type_eq : op.resultType setting' = op.resultType setting := by
    simp [resultType, given, present]
  rw [Operation.result, shape_eq, ok_bind, type_eq]
  exact made

/-! ### Tensors that agree with their nodes -/

/-- The inputs of a node are there, and the tensor that it stores is its type, if the types of all
other nodes are those that these store. -/
structure Graph.StoresType (g : Graph) (n : Node) : Prop where
  present : ∀ p ∈ n.inputs, g.has p = true
  stored : ∃ t, n.tensor = some t ∧ ∀ setting, LocalType setting g g.tensor? n t

/-- Another node, from which the first one takes no input, does not change that. -/
theorem Graph.StoresType.add (stores : g.StoresType m) (indexed : g.Indexed)
    (added : g.add n = .ok g') : g'.StoresType (feed n m) := by
  rcases stores with ⟨present, t, stored, stated⟩
  have still : ∀ p ∈ m.inputs, g'.has p = true :=
    fun p takes => indexed.has_of_add added (present p takes)
  have tensors : ∀ p ∈ m.inputs, g.tensor? p = g'.tensor? p :=
    fun p takes => (indexed.tensor?_add added (indexed.has_iff.1 (present p takes))).symm
  refine ⟨still, t, stored, fun setting => ?_⟩
  apply (localType_congr_of_has _ tensors).1 (stated setting)
  intro p takes
  rw [still p takes, present p takes]

theorem Graph.Gains.forall_storesType (gains : g.Gains form g') (indexed : g.Indexed)
    (formed : ∀ n, form n → g.StoresType n) (all : ∀ n ∈ g.nodes, g.StoresType n) :
    ∀ n ∈ g'.nodes, g'.StoresType n := by
  apply gains.forall_nodes (P := StoresType) indexed _ formed all
  exact fun _ _ _ added stores => stores.add indexed added

/-- Stored tensors are types that all nodes agree with. -/
theorem Graph.Indexed.solves_tensor? (indexed : g.Indexed)
    (stores : ∀ n ∈ g.nodes, g.StoresType n) (setting : Option String) :
    Solves setting g g.tensor? where
  domain := by
    intro name
    rw [indexed.has_eq_isSome, Graph.tensor?]
    cases found : g.node? name with
    | none => rfl
    | some n =>
        obtain ⟨t, stored, _⟩ := (stores n (indexed.node?_eq_some_iff.1 found).1).stored
        simp [stored]
  rule := by
    intro name n found
    rcases indexed.node?_eq_some_iff.1 found with ⟨member, rfl⟩
    obtain ⟨t, stored, stated⟩ := (stores n member).stored
    refine ⟨t, ?_, stated setting⟩
    rw [indexed.tensor?_of_mem member, stored]

namespace Builder

/-- A builder that some run of calls leads to in which the type of every operation is inferred.
Input nodes and constants are given a tensor. Calls that fail belong to the run, and the setting may
change between calls. -/
inductive Inferring : Builder → Prop where
  | start (name : Value) : Inferring { graph := .empty name }
  | addInput {b : Builder} (before : Inferring b) (tensor : Reference) (name : String) :
      Inferring (b.addInput (some tensor) name).1
  | addConst {b : Builder} (before : Inferring b) (tensor : Reference) (name : String) :
      Inferring (b.addConst (some tensor) name).1
  | addOperation {b : Builder} (before : Inferring b) (setting : Option String)
      (kind : OperationKind) (inputs : List String) (attributes : Entries Value) (name : String) :
      Inferring (b.addOperation setting kind inputs none none attributes name).1
  | addOutput {b : Builder} (before : Inferring b) (input name : String) :
      Inferring (b.addOutput input name).1

theorem Inferring.built (inferring : Inferring b) : Built b := by
  induction inferring with
  | start name => exact .start name
  | addInput _ tensor name ih => exact .addInput ih (some tensor) name
  | addConst _ tensor name ih => exact .addConst ih (some tensor) name
  | addOperation _ setting kind inputs attributes name ih =>
      exact .addOperation ih setting kind inputs none none attributes name
  | addOutput _ input name ih => exact .addOutput ih input name

/-- Every such run leaves nodes that store their types. -/
theorem Inferring.storesType (inferring : Inferring b) :
    ∀ n ∈ b.graph.nodes, b.graph.StoresType n := by
  induction inferring with
  | start name => exact fun _ member => nomatch member
  | addInput before tensor name ih =>
      have indexed := before.built.grown.indexed
      apply (addSource_gains .input (some tensor) name _).forall_storesType indexed _ ih
      rintro n ⟨_, _, rfl⟩
      exact ⟨nofun, tensor, rfl, fun _ => rfl⟩
  | addConst before tensor name ih =>
      have indexed := before.built.grown.indexed
      apply (addSource_gains .const (some tensor) name _).forall_storesType indexed _ ih
      rintro n ⟨_, _, rfl⟩
      exact ⟨nofun, tensor, rfl, fun _ => rfl⟩
  | addOperation before setting kind inputs attributes name ih =>
      have indexed := before.built.grown.indexed
      apply (addOperation_gains setting kind inputs none none attributes
        name).forall_storesType indexed _ ih
      rintro n ⟨_, _, made⟩
      obtain ⟨op, r, rfl, present, inputs_eq, result_eq⟩ := operationNode_spec indexed made
      refine ⟨present, r, rfl, fun setting' => ⟨op, rfl, ?_⟩⟩
      rw [← inputs_eq]
      exact Operation.result_eq_ok (result_eq rfl rfl) setting'
  | addOutput before input name ih =>
      have indexed := before.built.grown.indexed
      apply (addOutput_gains input name).forall_storesType indexed _ ih
      rintro n ⟨_, _, tensor, found, rfl⟩
      obtain ⟨has, tensor_eq⟩ := tensorOf_eq_ok indexed found
      -- The node that feeds the output stores a tensor, which is what the call has found.
      obtain ⟨m, member, rfl⟩ := mem_names.1 (indexed.has_iff.1 has)
      obtain ⟨t, stored, _⟩ := (ih m member).stored
      have fed := (indexed.tensor?_of_mem member).trans stored
      refine ⟨fun p takes => List.mem_singleton.1 takes ▸ has, t, tensor_eq.symm.trans fed, ?_⟩
      exact fun _ => ⟨m.name, List.find?_cons_of_pos has, fed⟩

/-- **Stored types are inferred again.** After any run of calls in which the type of every operation
is inferred, inference for the whole graph succeeds, whatever the setting is by then, and gives
every node the tensor that is stored in it. -/
theorem inferred_eq_stored (inferring : Inferring b) (setting : Option String) :
    ∃ types, b.graph.forwardTypes setting = .ok types ∧
      ∀ n ∈ b.graph.nodes, ∃ r, n.tensor = some r ∧ types.get? n.name = some r := by
  have grown := inferring.built.grown
  have indexed := grown.indexed
  have stores := inferring.storesType
  obtain ⟨types, inferred, types_eq⟩ :=
    indexed.exists_forwardTypes_iff.2 ⟨grown.acyclic, indexed.solves_tensor? stores setting⟩
  refine ⟨types, inferred, fun n member => ?_⟩
  obtain ⟨r, stored, _⟩ := (stores n member).stored
  refine ⟨r, stored, ?_⟩
  rw [types_eq, indexed.tensor?_of_mem member, stored]

/-- A builder after a product of two inputs, a call that fails for operands that do not match, and
an output of the sum of the product with itself. -/
def layered : Builder :=
  let b : Builder := { graph := .empty (.text "g") }
  let b := (b.addInput (some (.empty ⟨[2, 3]⟩ .float32)) "x").1
  let b := (b.addConst (some (.empty ⟨[3, 4]⟩ .float64)) "w").1
  let b := (b.addOperation (some "int8") .matmul ["x", "w"] none none [] "h").1
  let b := (b.addOperation none .matmul ["w", "x"] none none [] "").1
  let b := (b.addOperation none .add ["h", "h"] none none [] "").1
  (b.addOutput "add_1" "y").1

theorem inferred_layered : layered.graph.names = ["x", "w", "h", "add_1", "y"] ∧
    layered.graph.tensor? "y" = some (.empty ⟨[2, 4]⟩ .float32) ∧
    ∃ types, layered.graph.forwardTypes (some "int8") = .ok types ∧
      ∀ n ∈ layered.graph.nodes, ∃ r, n.tensor = some r ∧ types.get? n.name = some r := by
  have inferring : layered.Inferring :=
    .addOutput (.addOperation (.addOperation (.addOperation (.addConst (.addInput (.start _) _ _)
      _ _) _ _ _ _ _) _ _ _ _ _) _ _ _ _ _) _ _
  exact ⟨rfl, rfl, inferred_eq_stored inferring (some "int8")⟩

end Builder

end TensorGraph
