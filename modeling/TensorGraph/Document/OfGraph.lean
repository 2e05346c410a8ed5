import TensorGraph.Graph.Order

/-!
Documents of graphs. A document is a value made of maps, lists, texts and numbers: the name of the
graph, a record for each node in topological order, the names of the input and output nodes, and
the metadata, if there is any.
-/

namespace TensorGraph.Document

/-- The record of a tensor; a digest stands only where there are bytes. -/
def tensorRecord (r : Reference) : Value :=
  .map ([("shape", .ofNats r.shape.dims),
      ("dtype", .text r.elementType.name)] ++
    if r.isMaterialized then [("hash", .text r.digest.text)] else [])

/-- Metadata as an entry, if there is any. -/
def metadataEntry (metadata : OrderedMap Value) : Entries Value :=
  if metadata.isEmpty then [] else [("metadata", .map metadata.entries)]

/-- An entry that is left out where there is nothing to write. -/
def optionalEntry {α : Type} (key : String) (write : α → Value) : Option α → Entries Value
  | some a => [(key, write a)]
  | none => []

/-- The entries that every node has. -/
def nodeEntries (n : Node) : Entries Value :=
  [("id", .text n.name), ("kind", .text n.kind.name), ("inputs", .ofTexts n.inputs),
      ("outputs", .ofTexts n.outputs)] ++
    optionalEntry "op" (fun op => .map (Operation.toRecord op)) n.operation ++
    optionalEntry "tensor" tensorRecord n.tensor ++ metadataEntry n.metadata

def nodeRecord (n : Node) : Value := .map (nodeEntries n)

/-- The document of a graph whose nodes stand in this order. -/
def entriesOf (g : Graph) (order : List String) : Entries Value :=
  [("name", g.name), ("nodes", .list ((g.existing order).map nodeRecord)),
      ("inputs", .ofTexts g.inputs), ("outputs", .ofTexts g.outputs)] ++ metadataEntry g.metadata

/-- The document of a graph. A graph with a cycle has none. -/
def ofGraph (g : Graph) : Except Error Value := return .map (entriesOf g (← g.sorted))

end TensorGraph.Document
