import TensorGraph.Document.OfGraph
import TensorGraph.Document.ToGraph
import TensorGraph.Proofs.Graph.SameNodes

/-!
Records read back. What is written of a node and what is read of it are two pieces of code, and
most entries of a record may be missing: each reader is shown to invert its writer, from tensors
and operations up to nodes. Reading loses two things only. Successors are not read, and an id or a
device that counts as absent comes back as the empty text.
-/

namespace TensorGraph.Document

open TensorGraph.Graph

variable {g : Graph} {n m : Node} {entries first second : Entries Value} {key : String}

/-- An id or a device as it comes back. -/
def kept (value : Value) : Value := if value.isPresent then value else .text ""

/-- An operation as it comes back, on inputs that are known. -/
def restoredOperation (op : Operation) (inputs : List (Option Reference)) : Operation :=
  { op with inputs, output := none, id := kept op.id, device := kept op.device }

/-- A node as it comes back among the nodes loaded so far. -/
def restored (g : Graph) (n : Node) : Node :=
  { n with
    outputs := []
    operation := n.operation.map fun op =>
      { restoredOperation op (n.inputs.map fun p => (g.node? p).bind Node.tensor) with
        output := n.tensor } }

theorem kept_of_isPresent {value : Value} (present : value.isPresent = true) :
    kept value = value := if_pos present

@[simp] theorem isPresent_kept (value : Value) : (kept value).isPresent = value.isPresent := by
  cases present : value.isPresent with
  | true => rw [kept_of_isPresent present, present]
  | false =>
      rw [kept, present]
      rfl

/-! ### Looking up entries -/

@[simp] theorem entriesOrFail_map : entriesOrFail (.map entries) = .ok entries := rfl

@[simp] theorem textOrFail_text (f : Fault) (s : String) : textOrFail f (.text s) = .ok s := rfl

@[simp] theorem itemsOrFail_list (items : List Value) : itemsOrFail (.list items) = .ok items := rfl

theorem get?_optionalEntry {α : Type} (write : α → Value) (value : Option α) (asked : String) :
    (optionalEntry key write value).get? asked =
      if key = asked then value.map write else none := by
  cases value <;> simp [optionalEntry, Entries.get?_cons, Entries.get?_nil]

theorem get?_metadataEntry_of_ne (metadata : OrderedMap Value) (other : key ≠ "metadata") :
    (metadataEntry metadata).get? key = none := by
  rw [metadataEntry]
  split
  · rfl
  · simp [Entries.get?_cons, Entries.get?_nil, Ne.symm other]

/-! ### Tensors, metadata and operations -/

/-- A tensor is read back, with its digest or without one. -/
theorem tensorOf_tensorRecord (r : Reference) : tensorOf (tensorRecord r) = .ok r := by
  obtain ⟨⟨dims⟩, elementType, digest⟩ := r
  have shape := Shape.ofValues_ofNats dims
  have type := ElementType.parse_name elementType
  by_cases unknown : digest = .zero
  · simp [tensorRecord, tensorOf, Reference.isMaterialized, Digest.isZero, entryOr,
      Entries.get?_cons, Entries.get?_nil, Value.ofNats, Value.ofInts, digestOf, shape, type,
      unknown, -List.map_map]
  · have spelled := digest.parse_text
    simp [tensorRecord, tensorOf, Reference.isMaterialized, Digest.isZero, entryOr,
      Entries.get?_cons, Value.ofNats, Value.ofInts, digestOf, shape, type, unknown, spelled,
      -List.map_map]

/-- Metadata that is empty is not written, and nothing is read as empty metadata. -/
theorem metadataOf_metadataEntry (metadata : OrderedMap Value) :
    metadataOf (entryOr (metadataEntry metadata) "metadata" .null) = .ok metadata := by
  have made := metadata.ofEntries_entries
  rcases metadata with ⟨_ | ⟨entry, rest⟩, nodup⟩
  · rfl
  · simpa [metadataEntry, OrderedMap.isEmpty, entryOr, Entries.get?_cons, metadataOf,
      Value.isPresent, looseEntries] using made

/-- An operation is read back, whichever of its entries were left out. -/
theorem operationOf_toRecord (op : Operation) (inputs : List (Option Reference)) :
    operationOf (.map op.toRecord) inputs = .ok (restoredOperation op inputs) := by
  obtain ⟨kind, _, attributes, _, id, elementType, device⟩ := op
  have kind_read := OperationKind.parse?_name kind
  have attributes_read : attributesOf attributes.toRecord = .ok attributes := by
    have read := attributes.ofValues_toRecord
    rcases attributes with ⟨_ | ⟨entry, rest⟩, nodup⟩
    · rfl
    · simpa [attributesOf, Attributes.toRecord, Value.isPresent] using read
  have hint_read : hintOf ((elementType.map fun t => .text t.name).getD .null) =
      .ok elementType := by
    cases elementType with
    | none => rfl
    | some t => simp [hintOf, ElementType.parse_name]
  cases elementType <;> cases id_there : id.isPresent <;> cases device_there : device.isPresent <;>
    simp_all [operationOf, Operation.toRecord, Value.entries?, entryOr, Entries.get?_cons,
      Entries.get?_nil, operationKindOf, restoredOperation, kept]

/-! ### Nodes -/

/-- The optional entries of a node, each as it was written. -/
theorem get?_nodeEntries (n : Node) :
    (nodeEntries n).get? "op" = n.operation.map (fun op => .map op.toRecord) ∧
      (nodeEntries n).get? "tensor" = n.tensor.map tensorRecord ∧
      (nodeEntries n).get? "metadata" = (metadataEntry n.metadata).get? "metadata" := by
  refine ⟨?_, ?_, ?_⟩ <;>
    simp [nodeEntries, Entries.get?_append, Entries.get?_cons, get?_optionalEntry,
      get?_metadataEntry_of_ne]

theorem whenPresent_eq {α β : Type} {read : Value → Except Error α} {write : β → Value}
    {result : β → α} (value : Option β) (found : entries.get? key = value.map write)
    (reads : ∀ b, read (write b) = .ok (result b)) :
    whenPresent entries key read = .ok (value.map result) := by
  rw [whenPresent, found]
  cases value <;> simp [reads]

/-- A node that has a name is read back. -/
theorem nodeOf_nodeRecord (g : Graph) (named : n.name ≠ "") :
    nodeOf g (nodeRecord n) = .ok (restored g n) := by
  obtain ⟨op_entry, tensor_entry, metadata_entry⟩ := get?_nodeEntries n
  have id_read : entryOr (nodeEntries n) "id" .null = .text n.name := rfl
  have kind_read : entryOr (nodeEntries n) "kind" .null = .text n.kind.name := rfl
  have inputs_entry : entryOr (nodeEntries n) "inputs" (.list []) = .list (n.inputs.map .text) :=
    rfl
  have inputs_read : (n.inputs.map .text).mapM (textOrFail .wrongForm) = .ok n.inputs :=
    mapM_map_ok fun _ => rfl
  have tensor_read : whenPresent (nodeEntries n) "tensor" tensorOf = .ok n.tensor := by
    rw [whenPresent_eq n.tensor tensor_entry tensorOf_tensorRecord]
    simp
  have operation_read : (whenPresent (nodeEntries n) "op" fun record => do
      let op ← operationOf record (n.inputs.map fun p => (g.node? p).bind Node.tensor)
      .ok { op with output := n.tensor }) = .ok (restored g n).operation :=
    whenPresent_eq n.operation op_entry fun op => by rw [operationOf_toRecord, ok_bind]
  have metadata_read : metadataOf (entryOr (nodeEntries n) "metadata" .null) =
      .ok n.metadata := by
    rw [entryOr, metadata_entry]
    exact metadataOf_metadataEntry n.metadata
  simp [nodeOf, nodeRecord, id_read, kind_read, inputs_entry, inputs_read, tensor_read,
    operation_read, metadata_read, Value.isPresent, Value.text?, NodeKind.ofName?_name, named]
  rfl

/-! ### What comes back -/

/-- An operation that comes back is written as the first one was. -/
theorem sameOperation_restored (op : Operation) (inputs : List (Option Reference))
    (output : Option Reference) :
    SameOperation op { restoredOperation op inputs with output } where
  kind_eq := rfl
  attributes_eq := rfl
  elementType_eq := rfl
  toRecord_eq := by
    cases id_there : op.id.isPresent <;> cases device_there : op.device.isPresent <;>
      simp_all [Operation.toRecord, restoredOperation, kept_of_isPresent]

/-- A node that comes back is the same, successors aside. -/
theorem sameNode_restored (g : Graph) (n : Node) : SameNode n (restored g n) where
  name_eq := rfl
  inputs_eq := rfl
  kind_eq := rfl
  tensor_eq := rfl
  metadata_eq := rfl
  operation_rel := by
    rw [restored]
    cases n.operation with
    | none => exact .none
    | some op => exact .some (sameOperation_restored op _ _)

/-- Same nodes with the same successors have the same record. -/
theorem nodeRecord_eq (same : SameNode n m) (outputs_eq : m.outputs = n.outputs) :
    nodeRecord m = nodeRecord n := by
  have operations : optionalEntry "op" (fun op => .map (Operation.toRecord op)) m.operation =
      optionalEntry "op" (fun op => .map (Operation.toRecord op)) n.operation := by
    have relation := same.operation_rel
    generalize n.operation = op, m.operation = op' at relation
    cases relation with
    | none => rfl
    | some alike => rw [optionalEntry, optionalEntry, alike.toRecord_eq]
  rw [nodeRecord, nodeRecord, nodeEntries, nodeEntries, operations, same.name_eq, same.kind_eq,
    same.inputs_eq, same.tensor_eq, same.metadata_eq, outputs_eq]

end TensorGraph.Document
