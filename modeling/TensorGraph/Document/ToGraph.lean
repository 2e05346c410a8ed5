import TensorGraph.ElementType.Default
import TensorGraph.Graph.Basic
import TensorGraph.Shape.OfValue

/-!
Graphs of documents. Nodes are added in the order of their records, so a record may come before
those of its predecessors; the successors of all nodes are then completed.
-/

namespace TensorGraph.Document

/-- The entries of a value that has to be a map. -/
def entriesOrFail (value : Value) : Except Error (Entries Value) :=
  orError value.entries? (.fault .noFields)

/-- The items of a value that has to be a list of some kind. -/
def itemsOrFail (value : Value) : Except Error (List Value) :=
  orError value.items? (.fault .wrongForm)

def textOrFail (f : Fault) (value : Value) : Except Error String := orError value.text? (.fault f)

/-- An entry, or what stands for it where it is missing. -/
def entryOr (entries : Entries Value) (key : String) (default : Value) : Value :=
  (entries.get? key).getD default

def pairEntry (value : Value) : Except Error (String × Value) := do
  match ← itemsOrFail value with
  | [key, value] => return (← textOrFail .wrongForm key, value)
  | _ => failWith .badValue

/-- The entries of a map, or of a list of pairs. -/
def looseEntries (value : Value) : Except Error (Entries Value) :=
  match value with
  | .map entries => .ok entries
  | value => do (← itemsOrFail value).mapM pairEntry

/-- The metadata that a value describes; a value that counts as absent describes none. -/
def metadataOf (value : Value) : Except Error (OrderedMap Value) := do
  if value.isPresent then return .ofEntries (← looseEntries value) else return .empty

def digestOf (value : Value) : Except Error Digest :=
  match value with
  | .null => .ok .zero
  | .text s => Digest.parse s
  | value => do
    let items ← itemsOrFail value
    if items.length = 64 then failWith .wrongForm
    else .error (.tensor (.hashLength items.length))

def tensorOf (record : Value) : Except Error Reference := do
  let entries ← entriesOrFail record
  let shape ← Shape.ofValues (← itemsOrFail (entryOr entries "shape" (.list [])))
  let elementType ←
    ElementType.parse (← textOrFail .noFields (entryOr entries "dtype" (.text "")))
  return ⟨shape, elementType, ← digestOf (entryOr entries "hash" .null)⟩

/-- The kind of operation that a value names. -/
def operationKindOf (value : Value) : Except Error OperationKind := do
  let name ← textOrFail .noFields value
  orError (OperationKind.parse? name) (.graph (.unknownOperation name))

/-- The element type that a value names; null names none. -/
def hintOf (value : Value) : Except Error (Option ElementType) :=
  match value with
  | .null => .ok none
  | value => do return some (← ElementType.parse (← textOrFail .noFields value))

def attributesOf (value : Value) : Except Error Attributes := do
  if value.isPresent then Attributes.ofValues (← entriesOrFail value) else return .empty

/-- The operation of a record, on inputs that are known. -/
def operationOf (record : Value) (inputs : List (Option Reference)) : Except Error Operation := do
  let entries ← orError record.entries? (.fault .wrongForm)
  let kind ← operationKindOf (← orError (entries.get? "kind") (.fault .missingKey))
  let elementType ← hintOf (entryOr entries "dtype" .null)
  let attributes ← attributesOf (entryOr entries "attrs" .null)
  return { kind, inputs, attributes, elementType,
           id := entryOr entries "id" (.text ""), device := entryOr entries "device" (.text "") }

/-- What an entry describes, if it is there. -/
def whenPresent {α : Type} (entries : Entries Value) (key : String)
    (read : Value → Except Error α) : Except Error (Option α) :=
  match entries.get? key with
  | some value => some <$> read value
  | none => .ok none

/-- The node of a record. The inputs of its operation are the tensors of the nodes loaded so
far. -/
def nodeOf (g : Graph) (record : Value) : Except Error Node := do
  let entries ← entriesOrFail record
  let id := entryOr entries "id" .null
  if !id.isPresent then .error (.graph (.missingId entries))
  let kindValue := entryOr entries "kind" .null
  let kind ← orError (kindValue.text?.bind NodeKind.ofName?) (.graph (.badNodeKind id kindValue))
  let inputs ← itemsOrFail (entryOr entries "inputs" (.list []))
  let tensor ← whenPresent entries "tensor" tensorOf
  let inputs ← inputs.mapM (textOrFail .wrongForm)
  let references := inputs.map fun name => (g.node? name).bind Node.tensor
  let operation ← whenPresent entries "op" fun record => do
    return { ← operationOf record references with output := tensor }
  let metadata ← metadataOf (entryOr entries "metadata" .null)
  return { name := ← textOrFail .wrongForm id, kind, operation, inputs, tensor, metadata }

def addRecord (g : Graph) (record : Value) : Except Error Graph := do g.add (← nodeOf g record)

/-- Appends a name that is not there yet. -/
def appended (names : List String) (name : String) : List String :=
  if name ∈ names then names else names ++ [name]

/-- Makes a node a successor of all its predecessors. -/
def relink (g : Graph) (n : Node) : Graph :=
  n.inputs.foldl (fun g p => g.modify p fun m => { m with outputs := appended m.outputs n.name }) g

/-- The graph of a document before its nodes are added, and their records. -/
def opened (doc : Value) : Except Error (Graph × List Value) := do
  let entries ← entriesOrFail doc
  let metadata ← looseEntries (entryOr entries "metadata" (.map []))
  let start : Graph :=
    { name := entryOr entries "name" (.text ""), metadata := .ofEntries metadata }
  return (start, ← itemsOrFail (entryOr entries "nodes" (.list [])))

def toGraph (doc : Value) : Except Error Graph := do
  let (start, records) ← opened doc
  let g ← records.foldlM addRecord start
  return g.nodes.foldl relink g

/-- The nodes that are added record by record, up to the first record that fails. -/
def addedNodes (g : Graph) : List Value → List Node
  | [] => []
  | record :: rest =>
    match nodeOf g record with
    | .error _ => []
    | .ok n =>
      match g.add n with
      | .error _ => []
      | .ok g => n :: addedNodes g rest

end TensorGraph.Document
