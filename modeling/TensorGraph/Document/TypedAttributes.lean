import TensorGraph.Document.ToGraph

/-!
Attributes in documents without types of their own. Each attribute is a record with one entry,
whose key names the variant, so a text that is spelled like a number stays a text.
-/

namespace TensorGraph.Document

/-- The name of the variant of a value. -/
def variantOf : Value → String
  | .bool _ => "bool"
  | .int _ => "int"
  | .float _ => "float"
  | .text _ => "str"
  | _ => "ints"

def typedAttribute (_key : String) (value : Value) : Except Error Value :=
  .ok (.map [(variantOf value, value)])

/-- The attribute of a record. -/
def untypedAttribute (key : String) (record : Value) : Except Error Value := do
  let entries ← entriesOrFail record
  match entries with
  | [(variant, value)] =>
    if variant ∈ attributeVariants then return value
    else .error (.graph (.badAttributeRecord key entries))
  | _ => .error (.graph (.badAttributeRecord key entries))

/-- Converts the attributes of an operation, if it has any. -/
def mapOperation (convert : String → Value → Except Error Value) (op : Entries Value) :
    Except Error (Entries Value) :=
  match op.get? "attrs" with
  | some attributes => do
    let converted ← (← entriesOrFail attributes).mapM fun entry => do
      return (entry.1, ← convert entry.1 entry.2)
    return op.put "attrs" (.map converted)
  | none => .ok op

/-- Converts the attributes of a node, if it has an operation. -/
def mapNode (convert : String → Value → Except Error Value) (record : Value) :
    Except Error Value := do
  let entries ← entriesOrFail record
  match entries.get? "op" with
  | some op => return .map (entries.put "op" (.map (← mapOperation convert (← entriesOrFail op))))
  | none => return record

/-- Converts the attributes of all nodes. -/
def mapAttributes (convert : String → Value → Except Error Value) (doc : Value) :
    Except Error Value := do
  let entries ← entriesOrFail doc
  let records ← itemsOrFail (entryOr entries "nodes" (.list []))
  return .map (entries.put "nodes" (.list (← records.mapM (mapNode convert))))

end TensorGraph.Document
