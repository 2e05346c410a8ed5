import TensorGraph.Error
import TensorGraph.Yaml.Tree

/-!
Schemas: what the scalars of a tree stand for. A schema reads a tree as a value, and writes a
value as a tree; lists and maps without items are written as nothing.
-/

namespace TensorGraph.Document

open Number Yaml

/-- What a tree may hold. -/
inductive Schema where
  | text
  | int
  | float
  | bool
  /-- A list, which may be empty. -/
  | listOf (item : Schema)
  /-- A map with any keys, which may be empty. -/
  | mapOf (value : Schema)
  /-- A map with given keys, of which some are required. -/
  | record (fields : List (String × Bool × Schema))

/-- A tree or a value that does not fit. -/
def unfit {α : Type} : Except Error α := failWith .yamlSchema

/-- Text without one line break at its end. -/
def withoutBreak (cs : List Char) : List Char :=
  if cs.getLast? = some '\n' then cs.dropLast else cs

/-- Text without a sign at its start. -/
def withoutSign : List Char → List Char
  | '+' :: rest => rest
  | '-' :: rest => rest
  | cs => cs

/-- A digit, or what may stand between digits. -/
def isDigitLike (c : Char) : Bool := c.isDigit || c = '_'

/-- Whether a text is an integer: digits and underscores behind a sign. -/
def isIntegerText (cs : List Char) : Bool :=
  let digits := withoutSign (withoutBreak cs)
  !digits.isEmpty && digits.all isDigitLike

/-- The integer of a text. Underscores do not count, but there has to be a digit. -/
def readInteger (s : String) : Except Error Int := do
  if !isIntegerText s.toList then unfit
  let digits := (withoutSign (withoutBreak s.toList)).filter Char.isDigit
  if digits.isEmpty then failWith .badValue
  let n : Int := Binary64.natOfDigits digits
  return if s.startsWith "-" then -n else n

/-- Whether a text is an exponent, or nothing. -/
def isExponentText : List Char → Bool
  | [] => true
  | c :: rest =>
    let digits := withoutSign rest
    (c = 'e' || c = 'E') && !digits.isEmpty && digits.all isDigitLike

/-- Whether a text has the form of a decimal. Every part of it may be missing. -/
def isDecimalText (cs : List Char) : Bool :=
  let rest := (withoutSign cs).dropWhile isDigitLike
  match rest with
  | '.' :: rest => isExponentText (rest.dropWhile isDigitLike)
  | rest => isExponentText rest

/-- Whether a text names an infinity or the value that is no number; a point may stand before the
name. -/
def isSpecialText (cs : List Char) : Bool :=
  let name (cs : List Char) : String := String.ofList (if cs.head? = some '.' then cs.tail else cs)
  ["inf", "Inf", "INF"].contains (name (withoutSign cs)) ||
    ["nan", "NaN", "NAN"].contains (name cs)

def readFloat (s : String) : Except Error Binary64 := do
  let cs := withoutBreak s.toList
  let cs ←
    if isSpecialText cs then pure (cs.filter (· ≠ '.'))
    else if isDecimalText cs then pure (cs.filter (· ≠ '_'))
    else unfit
  orError (Binary64.read? (String.ofList cs)) (.fault .badValue)

/-- The truth value of a text, in any case. -/
def readBool (s : String) : Except Error Bool :=
  let word := String.ofList (s.toList.map Text.lowered)
  if ["yes", "true", "on", "1", "y"].contains word then .ok true
  else if ["no", "false", "off", "0", "n"].contains word then .ok false
  else unfit

def writeFloat (x : Binary64) : String := x.text

namespace Schema

/-- Reads a scalar. A text that is empty stands for a list or a map without items. -/
def readScalar (schema : Schema) (s : String) : Except Error Value :=
  match schema with
  | .text => .ok (.text s)
  | .int => .int <$> readInteger s
  | .float => .float <$> readFloat s
  | .bool => .bool <$> readBool s
  | .listOf _ => if s = "" then .ok (.list []) else unfit
  | .mapOf _ => if s = "" then .ok (.map []) else unfit
  | .record _ => unfit

def field? (schema : Schema) (key : String) : Option Schema :=
  match schema with
  | .mapOf value => some value
  | .record fields => (fields.lookup key).map (·.2)
  | _ => none

/-- Whether a mapping with these keys can stand where the schema is asked for: it needs all required
keys. -/
def isComplete (schema : Schema) (keys : List String) : Bool :=
  match schema with
  | .mapOf _ => true
  | .record fields => fields.all fun field => !field.2.1 || keys.contains field.1
  | _ => false

mutual

def read (schema : Schema) : Tree → Except Error Value
  | .scalar s => schema.readScalar s
  | .sequence items =>
    match schema with
    | .listOf item => do return .list (← readItems item items)
    | _ => unfit
  | .mapping entries =>
    if schema.isComplete (entries.map (·.1)) then do
      return .map (← readEntries schema entries)
    else unfit

def readItems (schema : Schema) : List Tree → Except Error (List Value)
  | [] => .ok []
  | item :: rest => do return (← read schema item) :: (← readItems schema rest)

/-- The values of the entries of a map. -/
def readEntries (schema : Schema) : List (String × Tree) → Except Error (List (String × Value))
  | [] => .ok []
  | entry :: rest => do return (← readEntry schema entry) :: (← readEntries schema rest)

def readEntry (schema : Schema) : String × Tree → Except Error (String × Value)
  | (key, tree) =>
    match schema.field? key with
    | some inner => do return (key, ← read inner tree)
    | none => unfit

end

/-- A value that a schema cannot write. -/
def unwritable {α : Type} : Except Error α := failWith .yamlUnwritable

mutual

def write (schema : Schema) : Value → Except Error Tree
  | .text s =>
    match schema with
    | .text => .ok (.scalar s)
    | _ => unwritable
  | .int n =>
    match schema with
    | .int => .ok (.scalar (toString n))
    | _ => unwritable
  | .float x =>
    match schema with
    | .float => .ok (.scalar (writeFloat x))
    | _ => unwritable
  | .bool b =>
    match schema with
    | .bool => .ok (.scalar (if b then "yes" else "no"))
    | _ => unwritable
  | .list items =>
    match schema with
    | .listOf item => do return .ofItems (← writeItems item items)
    | _ => unwritable
  | .map entries =>
    match schema with
    | .mapOf _ => do return .ofEntries (← writeEntries schema entries)
    | .record _ => do return .ofEntries (← writeEntries schema entries)
    | _ => unwritable
  | _ => unwritable

def writeItems (schema : Schema) : List Value → Except Error (List Tree)
  | [] => .ok []
  | item :: rest => do return (← write schema item) :: (← writeItems schema rest)

def writeEntries (schema : Schema) : List (String × Value) → Except Error (List (String × Tree))
  | [] => .ok []
  | entry :: rest => do return (← writeEntry schema entry) :: (← writeEntries schema rest)

def writeEntry (schema : Schema) : String × Value → Except Error (String × Tree)
  | (key, value) =>
    match schema.field? key with
    | some inner => do return (key, ← write inner value)
    | none => unwritable

end

/-! ### The schema of graphs -/

/-- A record with one attribute, under the name of its variant. -/
def attributeRecord : Schema :=
  .record [("int", false, .int), ("float", false, .float), ("bool", false, .bool),
    ("str", false, .text), ("ints", false, .listOf .int)]

def tensor : Schema :=
  .record [("shape", false, .listOf .int), ("dtype", true, .text), ("hash", false, .text)]

def operation : Schema :=
  .record [("kind", true, .text), ("attrs", false, .mapOf attributeRecord), ("id", false, .text),
    ("dtype", false, .text), ("device", false, .text)]

def node : Schema :=
  .record [("id", true, .text), ("kind", true, .text), ("inputs", false, .listOf .text),
    ("outputs", false, .listOf .text), ("op", false, operation), ("tensor", false, tensor),
    ("metadata", false, .mapOf .text)]

def graph : Schema :=
  .record [("name", false, .text), ("nodes", false, .listOf node),
    ("inputs", false, .listOf .text), ("outputs", false, .listOf .text),
    ("metadata", false, .mapOf .text)]

end Schema

end TensorGraph.Document
