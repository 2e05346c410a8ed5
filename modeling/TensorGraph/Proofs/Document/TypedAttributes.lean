import Mathlib.Data.List.Forall2
import TensorGraph.Document.Form
import TensorGraph.Proofs.Document.Conformity
import TensorGraph.Proofs.Document.Records
import TensorGraph.Proofs.Graph.Reached

/-!
Attributes in documents without types. A document and its typed form are related: they are the same
but for the attributes, each of which stands in a record under the name of its variant. One lemma
says that a rewriting that follows such a relation carries a document over to the other one; the
relation can be turned round, so it serves the way back as well.
-/

namespace TensorGraph.Document

open TensorGraph.Graph
open List (Forall₂)

variable {g : Graph} {rel rel' : Value → Value → Prop} {key : String} {value value' : Value}
  {entries entries' : Entries Value} {convert : String → Value → Except Error Value}

/-! ### Documents that differ in attributes only -/

/-- One map is another one in which what stands under a key, if anything does, is replaced. -/
inductive Replaces (key : String) (rel : Value → Value → Prop) : Value → Value → Prop
  | absent {entries : Entries Value} (missing : entries.get? key = none) :
      Replaces key rel (.map entries) (.map entries)
  | present {entries : Entries Value} {value value' : Value}
      (found : entries.get? key = some value) (related : rel value value') :
      Replaces key rel (.map entries) (.map (entries.put key value'))

/-- Two maps have the same keys, with related values. -/
inductive Entrywise (rel : Value → Value → Prop) : Value → Value → Prop
  | intro {entries entries' : Entries Value}
      (related : Forall₂ (fun entry entry' => entry'.1 = entry.1 ∧ rel entry.2 entry'.2)
        entries entries') :
      Entrywise rel (.map entries) (.map entries')

/-- Two records of nodes differ at most in the attributes of their operations. -/
def NodeAlike (rel : Value → Value → Prop) : Value → Value → Prop :=
  Replaces "op" (Replaces "attrs" (Entrywise rel))

/-- Two documents differ at most in the attributes of their nodes. -/
inductive SameButAttributes (rel : Value → Value → Prop) : Value → Value → Prop
  | intro {entries : Entries Value} {records records' : List Value}
      (found : entries.get? "nodes" = some (.list records))
      (alike : Forall₂ (NodeAlike rel) records records') :
      SameButAttributes rel (.map entries) (.map (entries.put "nodes" (.list records')))

theorem Replaces.symm {old new : Value} (turn : ∀ {v w}, rel v w → rel' w v)
    (replaces : Replaces key rel old new) : Replaces key rel' new old := by
  cases replaces with
  | absent missing => exact .absent missing
  | @present entries value value' found related =>
    -- Putting the old value back undoes the replacement.
    have back := Replaces.present (Entries.get?_put_self entries key value') (turn related)
    rwa [Entries.put_put, Entries.put_of_get?_eq_some found] at back

theorem Entrywise.symm {old new : Value} (turn : ∀ {v w}, rel v w → rel' w v)
    (alike : Entrywise rel old new) : Entrywise rel' new old := by
  obtain ⟨related⟩ := alike
  exact ⟨related.flip.imp fun _ _ both => ⟨both.1.symm, turn both.2⟩⟩

theorem NodeAlike.symm {old new : Value} (turn : ∀ {v w}, rel v w → rel' w v)
    (alike : NodeAlike rel old new) : NodeAlike rel' new old :=
  Replaces.symm (Replaces.symm (Entrywise.symm turn)) alike

theorem SameButAttributes.symm {doc doc' : Value} (turn : ∀ {v w}, rel v w → rel' w v)
    (same : SameButAttributes rel doc doc') : SameButAttributes rel' doc' doc := by
  obtain @⟨entries, records, records', found, alike⟩ := same
  have back := SameButAttributes.intro (Entries.get?_put_self entries "nodes" (.list records'))
    (alike.flip.imp fun _ _ => NodeAlike.symm turn)
  rwa [Entries.put_put, Entries.put_of_get?_eq_some found] at back

/-! ### Rewriting along a relation -/

theorem mapM_eq_ok_of_forall₂ {α β : Type} {step : α → Except Error β} {as : List α} {bs : List β}
    (each : Forall₂ (fun a b => step a = .ok b) as bs) : as.mapM step = .ok bs := by
  induction each with
  | nil => rfl
  | cons first _ ih => simp [List.mapM_cons, first, ih]

section Rewriting

variable (converts : ∀ key value value', rel value value' → convert key value = .ok value')

include converts

theorem mapOperation_of_alike {op : Entries Value} {new : Value}
    (alike : Replaces "attrs" (Entrywise rel) (.map op) new) :
    ∃ op', new = .map op' ∧ mapOperation convert op = .ok op' := by
  cases alike with
  | absent missing => exact ⟨op, rfl, by rw [mapOperation, missing]⟩
  | present found related =>
    obtain ⟨related⟩ := related
    refine ⟨_, rfl, ?_⟩
    rw [mapOperation, found]
    dsimp only
    rw [entriesOrFail_map, ok_bind, mapM_eq_ok_of_forall₂ (related.imp fun entry entry' both => ?_),
      ok_bind, pure_eq_ok]
    rw [converts entry.1 _ _ both.2, ok_bind, pure_eq_ok, ← both.1]

theorem mapNode_of_alike {old new : Value} (alike : NodeAlike rel old new) :
    mapNode convert old = .ok new := by
  cases alike with
  | absent missing => simp [mapNode, missing]
  | @present _ value value' found related =>
    obtain ⟨op, rfl⟩ : ∃ op, value = .map op := by cases related <;> exact ⟨_, rfl⟩
    obtain ⟨op', rfl, mapped⟩ := mapOperation_of_alike converts related
    simp [mapNode, found, mapped]

/-- Rewriting the attributes of a document, and nothing else, gives the document that differs from
it in just that way. -/
theorem mapAttributes_of_same {doc doc' : Value} (same : SameButAttributes rel doc doc') :
    mapAttributes convert doc = .ok doc' := by
  obtain ⟨found, alike⟩ := same
  have mapped := mapM_eq_ok_of_forall₂ (alike.imp fun _ _ => mapNode_of_alike converts)
  simp [mapAttributes, entryOr, found, mapped]

end Rewriting

/-! ### Variants -/

/-- The name of the variant of an attribute. -/
def variant : Attribute → String
  | .int _ => "int"
  | .float _ => "float"
  | .bool _ => "bool"
  | .text _ => "str"
  | .ints _ => "ints"

/-- The record of an attribute under the name of its variant. -/
def tagged (a : Attribute) : Value := .map [(variant a, a.toRecord)]

/-- What a document holds of an attribute, and its record. -/
inductive Tags : Value → Value → Prop
  | intro (a : Attribute) : Tags a.toRecord (tagged a)

theorem typedAttribute_of_tags (key : String) (value record : Value) (tags : Tags value record) :
    typedAttribute key value = .ok record := by
  obtain ⟨a⟩ := tags
  cases a <;> rfl

theorem untypedAttribute_of_tags (key : String) (record value : Value) (tags : Tags value record) :
    untypedAttribute key record = .ok value := by
  obtain ⟨a⟩ := tags
  cases a <;> rfl

/-! ### Documents of graphs -/

def taggedAttributes (attributes : Attributes) : Value :=
  .map (attributes.entries.map fun entry => (entry.1, tagged entry.2))

def taggedOperation (op : Operation) : Entries Value :=
  op.toRecord.put "attrs" (taggedAttributes op.attributes)

/-- The record of a node with the record of each of its attributes. -/
def taggedNode (n : Node) : Entries Value :=
  match n.operation with
  | some op => (nodeEntries n).put "op" (.map (taggedOperation op))
  | none => nodeEntries n

/-- The document of a graph with the record of each attribute. -/
def taggedEntries (g : Graph) (order : List String) : Entries Value :=
  (entriesOf g order).put "nodes" (.list ((g.existing order).map fun n => .map (taggedNode n)))

theorem entrywise_attributes (attributes : Attributes) :
    Entrywise Tags attributes.toRecord (taggedAttributes attributes) := by
  refine ⟨?_⟩
  rw [List.forall₂_map_left_iff, List.forall₂_map_right_iff, List.forall₂_same]
  exact fun entry _ => ⟨rfl, .intro entry.2⟩

theorem nodeAlike_taggedNode (n : Node) : NodeAlike Tags (nodeRecord n) (.map (taggedNode n)) := by
  have op_entry := (get?_nodeEntries n).1
  rw [nodeRecord, taggedNode]
  cases operation : n.operation with
  | none => exact .absent (by rw [op_entry, operation]; rfl)
  | some op =>
    refine .present (by rw [op_entry, operation]; rfl) (.present rfl ?_)
    exact entrywise_attributes op.attributes

/-- The document of a graph and its typed form differ in the attributes of nodes only. -/
theorem sameButAttributes_taggedEntries (g : Graph) (order : List String) :
    SameButAttributes Tags (.map (entriesOf g order)) (.map (taggedEntries g order)) := by
  refine .intro rfl ?_
  rw [List.forall₂_map_left_iff, List.forall₂_map_right_iff, List.forall₂_same]
  exact fun n _ => nodeAlike_taggedNode n

/-! ### The schema -/

/-- All names and metadata of a graph are texts, as the schema asks for. -/
structure Textual (g : Graph) : Prop where
  name : ∃ s, g.name = .text s
  metadata : ∀ entry ∈ g.metadata.entries, ∃ s, entry.2 = .text s
  node_metadata : ∀ n ∈ g.nodes, ∀ entry ∈ n.metadata.entries, ∃ s, entry.2 = .text s
  id : ∀ n ∈ g.nodes, ∀ op, n.operation = some op → ∃ s, op.id = .text s
  device : ∀ n ∈ g.nodes, ∀ op, n.operation = some op → ∃ s, op.device = .text s

section Schema

open Schema

theorem admits_ofTexts (names : List String) : (listOf .text).Admits (.ofTexts names) :=
  .list (by simpa using fun name _ => .text name)

theorem admits_ofInts (ns : List Int) : (listOf .int).Admits (.ofInts ns) :=
  .list (by simpa using fun n _ => .int n)

theorem admits_tagged (a : Attribute) : attributeRecord.Admits (tagged a) := by
  refine admits_map_iff.2 ⟨rfl, ?_⟩
  cases a with
  | int n => exact .cons rfl (.int n) fits_nil
  | float x => exact .cons rfl (.float x) fits_nil
  | bool b => exact .cons rfl (.bool b) fits_nil
  | text s => exact .cons rfl (.text s) fits_nil
  | ints ns => exact .cons rfl (admits_ofInts ns) fits_nil

theorem admits_taggedAttributes (attributes : Attributes) :
    (mapOf attributeRecord).Admits (taggedAttributes attributes) := by
  refine admits_map_iff.2 ⟨rfl, fun entry member => ?_⟩
  obtain ⟨⟨_, a⟩, -, rfl⟩ := List.mem_map.1 member
  exact ⟨attributeRecord, rfl, admits_tagged a⟩

theorem fits_optionalEntry {α : Type} {schema inner : Schema} {write : α → Value} {value : Option α}
    (found : schema.field? key = some inner)
    (admits : ∀ a, value = some a → inner.Admits (write a)) :
    schema.Fits (optionalEntry key write value) := by
  cases value with
  | none => exact fits_nil
  | some a => exact .cons found (admits a rfl) fits_nil

theorem admits_taggedOperation {op : Operation} (id : ∃ s, op.id = .text s)
    (device : ∃ s, op.device = .text s) :
    Schema.operation.Admits (.map (taggedOperation op)) := by
  obtain ⟨id, id_eq⟩ := id
  obtain ⟨device, device_eq⟩ := device
  have entries_eq : taggedOperation op =
      [("kind", .text op.kind.name), ("attrs", taggedAttributes op.attributes)] ++
        (if op.id.isPresent then [("id", op.id)] else []) ++
        optionalEntry "dtype" (fun t => .text t.name) op.elementType ++
        (if op.device.isPresent then [("device", op.device)] else []) := by
    rw [taggedOperation, Operation.toRecord]
    cases op.elementType <;> rfl
  rw [entries_eq]
  refine admits_map_iff.2 ⟨by simp [isComplete, Schema.operation, Entries.keys], ?_⟩
  refine .append (.append (.append ?_ ?_) ?_) ?_
  · exact .cons rfl (.text _) (.cons rfl (admits_taggedAttributes _) fits_nil)
  · exact fits_ite rfl (id_eq ▸ .text id)
  · exact fits_optionalEntry rfl fun t _ => .text t.name
  · exact fits_ite rfl (device_eq ▸ .text device)

theorem admits_tensorRecord (r : Reference) : Schema.tensor.Admits (tensorRecord r) := by
  refine admits_map_iff.2 ⟨by simp [isComplete, Schema.tensor, Entries.keys], .append ?_ ?_⟩
  · exact .cons rfl (admits_ofInts _) (.cons rfl (.text _) fits_nil)
  · exact fits_ite rfl (.text _)

theorem fits_metadataEntry {schema : Schema} {metadata : OrderedMap Value}
    (found : schema.field? "metadata" = some (mapOf .text))
    (texts : ∀ entry ∈ metadata.entries, ∃ s, entry.2 = .text s) :
    schema.Fits (metadataEntry metadata) := by
  rw [metadataEntry]
  split
  · exact fits_nil
  · refine .cons found (admits_map_iff.2 ⟨rfl, fun entry member => ?_⟩) fits_nil
    obtain ⟨s, text⟩ := texts entry member
    exact ⟨.text, rfl, text ▸ .text s⟩

theorem admits_taggedNode (textual : Textual g) {n : Node} (member : n ∈ g.nodes) :
    Schema.node.Admits (.map (taggedNode n)) := by
  have entries_eq : taggedNode n =
      [("id", .text n.name), ("kind", .text n.kind.name), ("inputs", .ofTexts n.inputs),
          ("outputs", .ofTexts n.outputs)] ++
        optionalEntry "op" (fun op => .map (taggedOperation op)) n.operation ++
        optionalEntry "tensor" tensorRecord n.tensor ++ metadataEntry n.metadata := by
    rw [taggedNode, nodeEntries]
    cases n.operation <;> rfl
  rw [entries_eq]
  refine admits_map_iff.2 ⟨by simp [isComplete, Schema.node, Entries.keys], ?_⟩
  refine .append (.append (.append ?_ ?_) ?_) ?_
  · exact .cons rfl (.text _) (.cons rfl (.text _)
      (.cons rfl (admits_ofTexts _) (.cons rfl (admits_ofTexts _) fits_nil)))
  · exact fits_optionalEntry rfl fun op operation => admits_taggedOperation
      (textual.id n member op operation) (textual.device n member op operation)
  · exact fits_optionalEntry rfl fun r _ => admits_tensorRecord r
  · exact fits_metadataEntry rfl (textual.node_metadata n member)

/-- The typed form of the document of a graph is what the schema asks for. -/
theorem admits_taggedEntries (textual : Textual g) (indexed : g.Indexed) (order : List String) :
    Schema.graph.Admits (.map (taggedEntries g order)) := by
  obtain ⟨s, name_eq⟩ := textual.name
  have entries_eq : taggedEntries g order =
      [("name", g.name), ("nodes", .list ((g.existing order).map fun n => .map (taggedNode n))),
        ("inputs", .ofTexts g.inputs), ("outputs", .ofTexts g.outputs)] ++
          metadataEntry g.metadata := rfl
  rw [entries_eq]
  refine admits_map_iff.2 ⟨by simp [isComplete, Schema.graph], ?_⟩
  refine .append ?_ (fits_metadataEntry rfl textual.metadata)
  refine .cons rfl (name_eq ▸ .text s) (.cons rfl (.list fun record listed => ?_)
    (.cons rfl (admits_ofTexts _) (.cons rfl (admits_ofTexts _) fits_nil)))
  obtain ⟨n, member, rfl⟩ := List.mem_map.1 listed
  obtain ⟨name, -, found⟩ := List.mem_filterMap.1 member
  exact admits_taggedNode textual (indexed.node?_eq_some_iff.1 found).1

end Schema

end TensorGraph.Document
