import Mathlib.Data.List.Forall2
import TensorGraph.Graph.Types
import TensorGraph.Proofs.Graph.Successors

/-!
Nodes that are the same to whoever reads them, wherever they lie: same edges, or same edges and
same content. Graphs with the same nodes give every node the same type.
-/

namespace TensorGraph.Graph

variable {g g' : Graph} {n m : Node} {ns ms : List Node}

/-- Two nodes of one name that take the same inputs. -/
structure SameEdges (n m : Node) : Prop where
  name_eq : m.name = n.name
  inputs_eq : m.inputs = n.inputs

/-- Two operations that compute the same and are written alike. The tensors that stand for their
inputs and their output are not compared. -/
structure SameOperation (op op' : Operation) : Prop where
  kind_eq : op'.kind = op.kind
  attributes_eq : op'.attributes = op.attributes
  elementType_eq : op'.elementType = op.elementType
  toRecord_eq : op'.toRecord = op.toRecord

/-- Two nodes that differ at most in their successors, and in what their operations do not show. -/
structure SameNode (n m : Node) : Prop extends SameEdges n m where
  kind_eq : m.kind = n.kind
  tensor_eq : m.tensor = n.tensor
  metadata_eq : m.metadata = n.metadata
  operation_rel : Option.Rel SameOperation n.operation m.operation

theorem SameNode.refl (n : Node) : SameNode n n := by
  refine ⟨⟨rfl, rfl⟩, rfl, rfl, rfl, ?_⟩
  cases n.operation with
  | none => exact .none
  | some op => exact .some ⟨rfl, rfl, rfl, rfl⟩

/-- Nodes that are the same as a third one are the same. -/
theorem SameNode.of_common {k : Node} (one : SameNode k n) (two : SameNode k m) :
    SameNode n m := by
  refine ⟨⟨two.name_eq.trans one.name_eq.symm, two.inputs_eq.trans one.inputs_eq.symm⟩,
    two.kind_eq.trans one.kind_eq.symm, two.tensor_eq.trans one.tensor_eq.symm,
    two.metadata_eq.trans one.metadata_eq.symm, ?_⟩
  have first := one.operation_rel
  have second := two.operation_rel
  generalize k.operation = op, n.operation = op', m.operation = op'' at first second
  cases first with
  | none =>
      cases second
      exact .none
  | some alike =>
      cases second with
      | some alike' =>
          exact .some ⟨alike'.kind_eq.trans alike.kind_eq.symm,
            alike'.attributes_eq.trans alike.attributes_eq.symm,
            alike'.elementType_eq.trans alike.elementType_eq.symm,
            alike'.toRecord_eq.trans alike.toRecord_eq.symm⟩

theorem SameNode.symm (same : SameNode n m) : SameNode m n := same.of_common (.refl n)

/-- Successors do not count. -/
theorem SameNode.withOutputs (same : SameNode n m) (outputs : List String) :
    SameNode n { m with outputs } :=
  ⟨⟨same.name_eq, same.inputs_eq⟩, same.kind_eq, same.tensor_eq, same.metadata_eq,
    same.operation_rel⟩

/-- What a node is told of those that take its tensor does not count. -/
theorem SameNode.feed (same : SameNode n m) (taker : Node) : SameNode n (feed taker m) :=
  same.withOutputs _

/-! ### Lists of nodes that agree one by one -/

theorem exists_same_of_mem {relation : Node → Node → Prop} (agree : List.Forall₂ relation ns ms)
    (member : n ∈ ns) : ∃ m ∈ ms, relation n m := by
  induction agree with
  | nil => cases member
  | @cons first second ns ms alike _ ih =>
      rcases List.mem_cons.1 member with rfl | later
      · exact ⟨second, List.mem_cons_self, alike⟩
      · obtain ⟨m, member', same⟩ := ih later
        exact ⟨m, List.mem_cons_of_mem _ member', same⟩

/-- What agrees on nodes that agree is the same list. -/
theorem map_of_forall₂ {α : Type} {relation : Node → Node → Prop} {f : Node → α}
    (agree : List.Forall₂ relation ns ms)
    (alike : ∀ n ∈ ns, ∀ m ∈ ms, relation n m → f m = f n) : ms.map f = ns.map f := by
  induction agree with
  | nil => rfl
  | @cons n m ns ms first _ ih =>
      rw [List.map_cons, List.map_cons, alike n List.mem_cons_self m List.mem_cons_self first]
      rw [ih fun n earlier m later =>
        alike n (List.mem_cons_of_mem _ earlier) m (List.mem_cons_of_mem _ later)]

/-- Selections that agree on nodes that agree have the same names. -/
theorem map_filter_of_forall₂ {relation : Node → Node → Prop}
    (agree : List.Forall₂ relation ns ms) (named : ∀ n m, relation n m → m.name = n.name)
    {select select' : Node → Bool} (selects : ∀ n m, relation n m → select' m = select n) :
    (ms.filter select').map Node.name = (ns.filter select).map Node.name := by
  induction agree with
  | nil => rfl
  | @cons n m ns ms alike _ ih =>
      have both := selects n m alike
      by_cases selected : select n = true
      · rw [List.filter_cons_of_pos selected, List.filter_cons_of_pos (both.trans selected),
          List.map_cons, List.map_cons, ih, named n m alike]
      · rw [List.filter_cons_of_neg selected, List.filter_cons_of_neg (both ▸ selected), ih]

theorem takers_of_forall₂ (agree : List.Forall₂ SameEdges ns ms) (name : String) :
    takers name ms = takers name ns :=
  map_filter_of_forall₂ agree (fun _ _ same => same.name_eq) fun _ _ same => by
    rw [same.inputs_eq]

theorem ofKind_of_forall₂ (agree : List.Forall₂ SameNode ns ms) (kind : NodeKind) :
    ofKind kind ms = ofKind kind ns :=
  map_filter_of_forall₂ agree (fun _ _ same => same.name_eq) fun _ _ same => by
    rw [same.kind_eq]

/-- A node that is added is the last one, and the others stay what they are but for their
successors. -/
theorem Indexed.forall₂_nodes_add (indexed : g.Indexed) (added : g.add m = .ok g')
    (same : List.Forall₂ SameNode ns g.nodes) (alike : SameNode n m) :
    List.Forall₂ SameNode (ns ++ [n]) g'.nodes := by
  rw [indexed.nodes_add added, List.forall₂_map_right_iff]
  have all := List.rel_append same (.cons alike .nil)
  exact all.imp fun _ _ alike => alike.feed _

/-! ### Types -/

/-- The result of an operation depends on its kind, its attributes, its hint and its inputs. -/
theorem SameOperation.result_eq {op op' : Operation} (same : SameOperation op op')
    (setting : Option String) (inputs : List (Option Reference)) :
    Operation.result setting { op' with inputs } = Operation.result setting { op with inputs } := by
  rw [same.kind_eq, same.attributes_eq, same.elementType_eq]
  rfl

theorem SameNode.typeOf_eq (same : SameNode n m) (setting : Option String)
    (types : OrderedMap Reference) : typeOf setting types m = typeOf setting types n := by
  have operations := same.operation_rel
  rw [typeOf, typeOf, same.kind_eq, same.name_eq, same.inputs_eq, same.tensor_eq]
  cases n.kind with
  | op =>
      generalize n.operation = op, m.operation = op' at operations
      cases operations with
      | none => rfl
      | some alike => exact alike.result_eq setting _
  | _ => rfl

end TensorGraph.Graph
