import TensorGraph.Proofs.Document.TypedAttributes

/-!
Graphs in YAML text. Writing types the attributes of a document and reading unties them again, so
all that a document holds comes back if the text is read as what was written. Reading refuses in two
places: the schema refuses what is no record of known variants, with a fault, and the rewriting
refuses a record that has not exactly one variant, with an error about graphs.
-/

namespace TensorGraph.Document

open TensorGraph.Graph Yaml

variable {g : Graph} {key text : String} {value record doc doc' : Value}
  {entries : Entries Value} {convert : String → Value → Except Error Value}
  {fails : Error → Prop} {tree part : Tree}

/-! ### Attributes in documents and trees -/

/-- An attribute of the operation of a node, as the record of the node has it. -/
inductive NodeHas : Value → String → Value → Prop
  | intro {node op attributes : Entries Value} {key : String} {value : Value}
      (op_entry : node.get? "op" = some (.map op))
      (attributes_entry : op.get? "attrs" = some (.map attributes))
      (listed : (key, value) ∈ attributes) : NodeHas (.map node) key value

/-- An attribute of a node, as a document has it. -/
inductive HasAttribute : Value → String → Value → Prop
  | intro {entries : Entries Value} {records : List Value} {record : Value} {key : String}
      {value : Value} (nodes_entry : entries.get? "nodes" = some (.list records))
      (member : record ∈ records) (has : NodeHas record key value) :
      HasAttribute (.map entries) key value

/-- An attribute of a node, as a tree has it. -/
inductive TreeHas : Tree → String → Tree → Prop
  | intro {entries node op attributes : List (String × Tree)} {nodes : List Tree} {key : String}
      {record : Tree} (nodes_entry : ("nodes", .sequence nodes) ∈ entries)
      (member : .mapping node ∈ nodes) (op_entry : ("op", .mapping op) ∈ node)
      (attributes_entry : ("attrs", .mapping attributes) ∈ op)
      (listed : (key, record) ∈ attributes) : TreeHas (.mapping entries) key record

/-- A document is rewritten only if each of its attributes is. -/
theorem exists_ok_of_mapAttributes (mapped : mapAttributes convert doc = .ok doc')
    (has : HasAttribute doc key value) : ∃ converted, convert key value = .ok converted := by
  obtain ⟨nodes_entry, member, op_entry, attributes_entry, listed⟩ := has
  simp only [mapAttributes, entriesOrFail_map, ok_bind, entryOr, nodes_entry, Option.getD_some,
    itemsOrFail_list] at mapped
  obtain ⟨records, mapped, -⟩ := bind_eq_ok_iff.1 mapped
  obtain ⟨node', node_mapped⟩ := exists_ok_of_mapM mapped member
  simp only [mapNode, entriesOrFail_map, ok_bind, op_entry] at node_mapped
  obtain ⟨op', op_mapped, -⟩ := bind_eq_ok_iff.1 node_mapped
  simp only [mapOperation, attributes_entry, entriesOrFail_map, ok_bind] at op_mapped
  obtain ⟨attributes', attributes_mapped, -⟩ := bind_eq_ok_iff.1 op_mapped
  obtain ⟨entry', entry_mapped⟩ := exists_ok_of_mapM attributes_mapped listed
  obtain ⟨converted, converted_eq, -⟩ := bind_eq_ok_iff.1 entry_mapped
  exact ⟨converted, converted_eq⟩

section Failures

open Schema

theorem failsOnly_mapOperation {op : Entries Value} (fits : operation.Fits op)
    (only : ∀ attributes key value, op.get? "attrs" = some (.map attributes) →
      (key, value) ∈ attributes → attributeRecord.Admits value →
        FailsOnly fails (convert key value)) :
    FailsOnly fails (mapOperation convert op) := by
  rw [mapOperation]
  split
  next attributes found =>
    obtain ⟨attributes, rfl, each⟩ := exists_entries_of_admits_mapOf (fits.admits rfl found)
    rw [entriesOrFail_map, ok_bind]
    refine (failsOnly_mapM fun entry listed => ?_).bind fun _ => failsOnly_ok
    obtain ⟨inner, known, admits⟩ := each entry listed
    cases known
    exact (only attributes entry.1 entry.2 found listed admits).bind fun _ => failsOnly_ok
  next => exact failsOnly_ok

theorem failsOnly_mapNode (admits : node.Admits record)
    (only : ∀ key value, NodeHas record key value → attributeRecord.Admits value →
      FailsOnly fails (convert key value)) :
    FailsOnly fails (mapNode convert record) := by
  obtain ⟨entries, rfl, fits⟩ := exists_entries_of_admits_record admits
  rw [mapNode, entriesOrFail_map, ok_bind]
  split
  next op found =>
    obtain ⟨op, rfl, op_fits⟩ := exists_entries_of_admits_record (fits.admits rfl found)
    rw [entriesOrFail_map, ok_bind]
    refine (failsOnly_mapOperation op_fits ?_).bind fun _ => failsOnly_ok
    exact fun attributes key value attributes_entry listed =>
      only key value ⟨found, attributes_entry, listed⟩
  next => exact failsOnly_ok

/-- A document of the right form can only fail to be rewritten in one of its attributes. -/
theorem failsOnly_mapAttributes (admits : graph.Admits doc)
    (only : ∀ key value, HasAttribute doc key value → attributeRecord.Admits value →
      FailsOnly fails (convert key value)) :
    FailsOnly fails (mapAttributes convert doc) := by
  obtain ⟨entries, rfl, fits⟩ := exists_entries_of_admits_record admits
  rw [mapAttributes, entriesOrFail_map, ok_bind, entryOr]
  cases found : entries.get? "nodes" with
  | none => exact failsOnly_ok
  | some nodes =>
    obtain ⟨records, rfl, each⟩ := exists_items_of_admits (fits.admits rfl found)
    rw [Option.getD_some, itemsOrFail_list, ok_bind]
    refine (failsOnly_mapM fun record member => ?_).bind fun _ => failsOnly_ok
    exact failsOnly_mapNode (each record member) fun key value has =>
      only key value ⟨found, member, has⟩

end Failures

/-! ### Records of attributes -/

/-- Only a record with the name of one variant has an attribute. -/
theorem untypedAttribute_eq_error
    (bad : ∀ variant value, entries = [(variant, value)] → variant ∉ attributeVariants) :
    untypedAttribute key (.map entries) = .error (.graph (.badAttributeRecord key entries)) := by
  rw [untypedAttribute, entriesOrFail_map, ok_bind]
  split
  next variant value => rw [if_neg (bad variant value rfl)]
  next => rfl

/-- An error about an attribute of a document whose record has not exactly one key. -/
def IsBadRecord (doc : Value) (e : Error) : Prop :=
  ∃ key entries, HasAttribute doc key (.map entries) ∧ entries.length ≠ 1 ∧
    e = .graph (.badAttributeRecord key entries)

/-- Of a record that the schema lets pass, only the number of keys can be wrong. -/
theorem failsOnly_untypedAttribute (has : HasAttribute doc key value)
    (admits : Schema.attributeRecord.Admits value) :
    FailsOnly (IsBadRecord doc) (untypedAttribute key value) := by
  obtain ⟨entries, rfl, fits⟩ := Schema.exists_entries_of_admits_record admits
  by_cases single : entries.length = 1
  · obtain ⟨⟨variant, value⟩, rfl⟩ := List.length_eq_one_iff.1 single
    obtain ⟨inner, known, -⟩ := fits (variant, value) (by simp)
    have named : variant ∈ attributeVariants := Schema.mem_keys_of_field? known
    rw [untypedAttribute, entriesOrFail_map, ok_bind]
    dsimp only
    rw [if_pos named]
    exact failsOnly_ok
  · rw [untypedAttribute_eq_error]
    · exact ⟨key, entries, has, single, rfl⟩
    · rintro variant value rfl
      exact absurd rfl single

/-- What the schema of attribute records reads is a mapping with names of variants as its keys. -/
theorem exists_mapping_of_read (read : Schema.attributeRecord.read tree = .ok value) :
    ∃ parts, tree = .mapping parts ∧ ∀ part ∈ parts, part.1 ∈ attributeVariants := by
  cases tree with
  | scalar s => cases read
  | sequence items => cases read
  | mapping parts =>
    refine ⟨parts, rfl, fun part member => ?_⟩
    obtain ⟨inner, _, known, -⟩ := Schema.exists_read_of_mem_mapping read member
    exact Schema.mem_keys_of_field? known

/-! ### Texts -/

theorem exists_read_of_loadYaml (loaded : loadYaml text = .ok doc) :
    ∃ tree, Tree.parse text = .ok (some tree) ∧ Schema.graph.read tree = .ok doc := by
  obtain ⟨parsed, parse_eq, loaded⟩ := bind_eq_ok_iff.1 loaded
  split at loaded
  next entries => exact ⟨_, parse_eq, loaded⟩
  next => cases loaded

/-- Of the documents that the schema lets pass, one with an attribute whose record has not exactly
one key is refused with an error about such a record. -/
theorem ofYaml_of_not_single (loaded : loadYaml text = .ok doc) (has : HasAttribute doc key value)
    (bad : ∀ variant value', value ≠ .map [(variant, value')]) :
    ∃ e, IsBadRecord doc e ∧ ofYaml text = .error e := by
  obtain ⟨tree, -, read⟩ := exists_read_of_loadYaml loaded
  have only : FailsOnly (IsBadRecord doc) (mapAttributes untypedAttribute doc) :=
    failsOnly_mapAttributes (Schema.admits_of_read read) fun _ _ => failsOnly_untypedAttribute
  obtain ⟨doc', mapped⟩ | ⟨e, failed, told⟩ := only.cases
  · -- Had the document been rewritten, so would the record have been that cannot be.
    obtain ⟨_, untyped⟩ := exists_ok_of_mapAttributes mapped has
    obtain ⟨entries, rfl⟩ : ∃ entries, value = .map entries := by
      cases value <;> first | exact ⟨_, rfl⟩ | cases untyped
    rw [untypedAttribute_eq_error] at untyped
    · cases untyped
    · rintro variant value' rfl
      exact absurd rfl (bad variant value')
  · exact ⟨e, told, by rw [ofYaml, readYaml, loaded, ok_bind, failed, error_bind]⟩

/-- A tree is read only if the records of its attributes are. -/
theorem exists_read_of_treeHas (read : Schema.graph.read tree = .ok doc)
    (has : TreeHas tree key part) : ∃ value, Schema.attributeRecord.read part = .ok value := by
  obtain ⟨nodes_entry, member, op_entry, attributes_entry, listed⟩ := has
  -- On the way down, each key tells which schema reads what stands under it.
  obtain ⟨_, _, ⟨⟩, nodes_read⟩ := Schema.exists_read_of_mem_mapping read nodes_entry
  obtain ⟨_, node_read⟩ := Schema.exists_read_of_mem_sequence nodes_read member
  obtain ⟨_, _, ⟨⟩, op_read⟩ := Schema.exists_read_of_mem_mapping node_read op_entry
  obtain ⟨_, _, ⟨⟩, attributes_read⟩ := Schema.exists_read_of_mem_mapping op_read attributes_entry
  obtain ⟨_, value, ⟨⟩, record_read⟩ := Schema.exists_read_of_mem_mapping attributes_read listed
  exact ⟨value, record_read⟩

/-- A text in which the record of an attribute is no mapping, or has a key that names no variant, is
refused with a fault. -/
theorem ofYaml_of_unknown (parsed : Tree.parse text = .ok (some tree))
    (has : TreeHas tree key part)
    (bad : ∀ parts, part = .mapping parts → ∃ entry ∈ parts, entry.1 ∉ attributeVariants) :
    ∃ f, ofYaml text = .error (.fault f) := by
  have loads : loadYaml text = Schema.graph.read tree := by
    rw [loadYaml, parsed, ok_bind]
    cases has
    rfl
  rcases (Schema.ends_read Schema.graph tree).failsOnly.cases with ⟨doc, read⟩ | ⟨_, failed, f, rfl⟩
  · obtain ⟨value, record_read⟩ := exists_read_of_treeHas read has
    obtain ⟨parts, part_eq, named⟩ := exists_mapping_of_read record_read
    obtain ⟨entry, member, unnamed⟩ := bad parts part_eq
    exact absurd (named entry member) unnamed
  · exact ⟨f, by rw [ofYaml, readYaml, loads, failed, error_bind, error_bind]⟩

/-! ### A text that the schema refuses -/

/-- The tree of a document with one node and one attribute, whose record is given. -/
def oneAttribute (record : Tree) : Tree :=
  .mapping [("nodes", .sequence [.mapping [("id", .scalar "x"), ("kind", .scalar "op"),
    ("op", .mapping [("kind", .scalar "relu"), ("attrs", .mapping [("a", record)])])]])]

theorem treeHas_oneAttribute (record : Tree) : TreeHas (oneAttribute record) "a" record :=
  .intro (.head _) (.head _) (.tail _ (.tail _ (.head _))) (.tail _ (.head _)) (.head _)

/-- A document in which the record of an attribute has a key that names no variant. -/
def unknownVariant : String :=
  "nodes:\n- id: x\n  kind: op\n  op:\n    kind: relu\n    attrs:\n      a:\n        bogus: 1\n"

theorem parse_unknownVariant :
    Tree.parse unknownVariant = .ok (some (oneAttribute (.mapping [("bogus", .scalar "1")]))) := by
  decide +kernel

/-- Not every record with an unknown variant leads to an error about graphs: the schema comes
first. -/
theorem unknownVariant_refused_by_schema :
    Tree.parse unknownVariant = .ok (some (oneAttribute (.mapping [("bogus", .scalar "1")]))) ∧
      TreeHas (oneAttribute (.mapping [("bogus", .scalar "1")])) "a"
        (.mapping [("bogus", .scalar "1")]) ∧
      "bogus" ∉ attributeVariants ∧ ∀ e, ofYaml unknownVariant ≠ .error (.graph e) := by
  refine ⟨parse_unknownVariant, treeHas_oneAttribute _, by decide, fun e refused => ?_⟩
  obtain ⟨f, faulty⟩ := ofYaml_of_unknown parse_unknownVariant (treeHas_oneAttribute _) (by
    rintro parts ⟨⟩
    exact ⟨("bogus", .scalar "1"), .head _, by decide⟩)
  rw [faulty] at refused
  cases refused

/-! ### There and back -/

/-- **Typed attributes.** The document of a graph without a cycle is rewritten to a document that
differs from it in the attributes of nodes only, each of which stands in a record under the name of
its variant; rewriting that one gives back the first document. The typed document has the form that
the schema asks for, and if its text is read as that document, then the YAML text of the graph is
read as the graph that its document is read as. A record without the name of exactly one variant is
refused with an error about it. In a text the schema comes first: where it lets a document pass, a
record that has not exactly one key leads to such an error; a record that is no mapping, or that has
a key which names no variant, it refuses with a fault. -/
theorem attributes_survive_yaml (reached : g.Reached) (acyclic : g.Acyclic) :
    (∃ doc typed, ofGraph g = .ok doc ∧ mapAttributes typedAttribute doc = .ok typed ∧
      mapAttributes untypedAttribute typed = .ok doc ∧ SameButAttributes Tags doc typed ∧
      (Textual g → Schema.graph.Admits typed) ∧
      ((writeYaml typed >>= loadYaml) = .ok typed →
        ∃ text, toYaml g = .ok text ∧ ofYaml text = toGraph doc)) ∧
    (∀ key entries,
      (∀ variant value, entries = [(variant, value)] → variant ∉ attributeVariants) →
        untypedAttribute key (.map entries) =
          .error (.graph (.badAttributeRecord key entries))) ∧
    (∀ text doc key value, loadYaml text = .ok doc → HasAttribute doc key value →
      (∀ variant value', value ≠ .map [(variant, value')]) →
        ∃ e, IsBadRecord doc e ∧ ofYaml text = .error e) ∧
    (∀ text tree key part, Tree.parse text = .ok (some tree) → TreeHas tree key part →
      (∀ parts, part = .mapping parts → ∃ entry ∈ parts, entry.1 ∉ attributeVariants) →
        ∃ f, ofYaml text = .error (.fault f)) := by
  have indexed := reached.indexed
  refine ⟨?_, fun _ _ => untypedAttribute_eq_error, fun _ _ _ _ => ofYaml_of_not_single,
    fun _ _ _ _ => ofYaml_of_unknown⟩
  have same := sameButAttributes_taggedEntries g g.placement
  have written : ofGraph g = .ok (.map (entriesOf g g.placement)) := by
    rw [ofGraph, indexed.sorted_eq acyclic, ok_bind, pure_eq_ok]
  have typed_eq := mapAttributes_of_same typedAttribute_of_tags same
  have back := mapAttributes_of_same untypedAttribute_of_tags (same.symm id)
  refine ⟨_, _, written, typed_eq, back, same,
    fun textual => admits_taggedEntries textual indexed _, fun unchanged => ?_⟩
  obtain ⟨text, wrote, loaded⟩ := bind_eq_ok_iff.1 unchanged
  refine ⟨text, ?_, ?_⟩
  · rw [toYaml, written, ok_bind, typed_eq, ok_bind, wrote]
  · rw [ofYaml, readYaml, loaded, ok_bind, back, ok_bind]

/-- A node with attributes of four variants; the text could be taken for a number. -/
def mixed : List Node :=
  let attributes : Attributes :=
    .ofEntries [("flag", .bool true), ("count", .int 1), ("label", .text "1"), ("axes", .ints [])]
  [{ name := "x", kind := .op, operation := some { kind := .relu, attributes } }]

/-- The document of the graph of this node, with typed attributes. -/
def mixedTyped : Value :=
  .map [("name", .text "g"), ("nodes", .list [.map [("id", .text "x"), ("kind", .text "op"),
    ("inputs", .list []), ("outputs", .list []), ("op", .map [("kind", .text "relu"),
      ("attrs", .map [("flag", .map [("bool", .bool true)]), ("count", .map [("int", .int 1)]),
        ("label", .map [("str", .text "1")]), ("axes", .map [("ints", .list [])])])])]]),
    ("inputs", .list []), ("outputs", .list [])]

theorem mixedTyped_unchanged : (writeYaml mixedTyped >>= loadYaml) = .ok mixedTyped := by
  decide +kernel

/-- A text in which the record of an attribute has two keys. -/
def twoVariants : String :=
  "nodes:\n- id: x\n  kind: op\n  op:\n    kind: relu\n    attrs:\n      a:\n" ++
    "        int: 3\n        str: x\n"

/-- The document of this text. -/
def twoVariantsDocument : Value :=
  .map [("nodes", .list [.map [("id", .text "x"), ("kind", .text "op"),
    ("op", .map [("kind", .text "relu"),
      ("attrs", .map [("a", .map [("int", .int 3), ("str", .text "x")])])])]])]

theorem loadYaml_twoVariants : loadYaml twoVariants = .ok twoVariantsDocument := by decide +kernel

theorem attributes_survive_mixed :
    (∃ g text, mixed.foldlM Graph.add (.empty (.text "g")) = .ok g ∧ g.Reached ∧ g.Acyclic ∧
      toYaml g = .ok text ∧ ofYaml text = (ofGraph g >>= toGraph)) ∧
    untypedAttribute "a" (.map []) = .error (.graph (.badAttributeRecord "a" [])) ∧
    (∃ e, IsBadRecord twoVariantsDocument e ∧ ofYaml twoVariants = .error e) ∧
    ∃ f, ofYaml unknownVariant = .error (.fault f) := by
  obtain ⟨g, made⟩ : ∃ g, mixed.foldlM Graph.add (.empty (.text "g")) = .ok g := ⟨_, rfl⟩
  have reached : g.Reached := (Reached.empty _).foldlM_add made
  obtain ⟨order, rewritten⟩ : g.sorted = .ok ["x"] ∧
      (ofGraph g >>= mapAttributes typedAttribute) = .ok mixedTyped := by
    cases made
    exact ⟨rfl, rfl⟩
  have acyclic := (reached.indexed.sorted_eq_ok_iff.1 order).1
  obtain ⟨⟨doc, typed, written, typed_eq, _, _, _, through⟩, bad, several, unknown⟩ :=
    attributes_survive_yaml reached acyclic
  rw [written, ok_bind, typed_eq] at rewritten
  cases rewritten
  obtain ⟨text, wrote, read⟩ := through mixedTyped_unchanged
  refine ⟨⟨g, text, made, reached, acyclic, wrote, ?_⟩, bad _ _ nofun, ?_, ?_⟩
  · rw [read, written, ok_bind]
  · exact several _ _ "a" (.map [("int", .int 3), ("str", .text "x")]) loadYaml_twoVariants
      (.intro rfl (.head _) (.intro rfl rfl (.head _))) (by simp)
  · refine unknown _ _ "a" _ parse_unknownVariant (treeHas_oneAttribute _) ?_
    rintro parts ⟨⟩
    exact ⟨("bogus", .scalar "1"), .head _, by decide⟩

end TensorGraph.Document
