import TensorGraph.Error

/-!
Attributes of operations. An attribute has one of five variants, and a look-up asks for the
variant of its default: a value of another variant counts as missing, except that an integer
serves where a float is asked for.
-/

namespace TensorGraph

open Number

/-- The value of an attribute. -/
inductive Attribute where
  | int (n : Int)
  | float (x : Binary64)
  | bool (b : Bool)
  | text (s : String)
  | ints (ns : List Int)
deriving DecidableEq, Repr

namespace Attribute

/-- The attribute that a loose value stands for. -/
def ofValue (value : Value) : Except Error Attribute :=
  match value with
  | .bool b => .ok (bool b)
  | .text s => .ok (text s)
  | .float x => .ok (float x)
  | .int n => .ok (int n)
  | .list items => orError ((Value.allInts? items).map ints) (.badAttribute value)
  | .tuple items => orError ((Value.allInts? items).map ints) (.badAttribute value)
  | _ => .error (.badAttribute value)

/-- The attribute as a value of its own. -/
def toValue : Attribute → Value
  | int n => .int n
  | float x => .float x
  | bool b => .bool b
  | text s => .text s
  | ints ns => .tuple (ns.map .int)

/-- The attribute as documents hold it. -/
def toRecord : Attribute → Value
  | ints ns => .ofInts ns
  | a => a.toValue

/-- What documents hold of an attribute stands for the attribute. -/
theorem ofValue_toRecord (a : Attribute) : ofValue a.toRecord = .ok a := by
  cases a with
  | ints ns => simp [toRecord, Value.ofInts, ofValue, Value.allInts?_map_int]
  | _ => rfl

/-- An attribute that is stored once more is the same attribute. -/
theorem ofValue_toValue (a : Attribute) : ofValue a.toValue = .ok a := by
  cases a with
  | ints ns => simp [toValue, ofValue, Value.allInts?_map_int]
  | _ => rfl

end Attribute

/-- Attributes by name, in the order in which the names were first set. -/
abbrev Attributes := OrderedMap Attribute

namespace Attributes

/-- Sets an attribute to a value that has one of the variants. -/
def set (attributes : Attributes) (key : String) (value : Value) : Except Error Attributes := do
  return attributes.put key (← Attribute.ofValue value)

/-- Sets attributes one after the other. -/
def ofValues (entries : Entries Value) : Except Error Attributes :=
  entries.foldlM (fun attributes entry => set attributes entry.1 entry.2) OrderedMap.empty

/-- The value of an attribute, provided that it has the variant of the default. -/
def lookup (attributes : Attributes) (key : String) (default : Value) : Except Error Value :=
  match attributes.get? key, default with
  | some (.bool b), .bool _ => .ok (.bool b)
  | some (.int n), .int _ => .ok (.int n)
  | some (.float x), .float _ => .ok (.float x)
  | some (.int n), .float _ => do return .float (← orError (Binary64.ofInt? n) (.fault .overflow))
  | some (.text s), .text _ => .ok (.text s)
  | some (.ints ns), .tuple _ => .ok (.tuple (ns.map .int))
  | _, default => .ok default

/-- Looks up a list of integers; the default may be anything that can be listed. -/
def lookupInts (attributes : Attributes) (key : String) (default : Value) :
    Except Error Value := do
  lookup attributes key (.tuple (← orError default.items? (.fault .wrongForm)))

/-- The integer stored under a key, or a default. -/
def getInt (attributes : Attributes) (key : String) (default : Int) : Int :=
  match attributes.get? key with
  | some (.int n) => n
  | _ => default

/-- The truth value stored under a key, or a default. -/
def getBool (attributes : Attributes) (key : String) (default : Bool) : Bool :=
  match attributes.get? key with
  | some (.bool b) => b
  | _ => default

/-- The text stored under a key, or a default. -/
def getText (attributes : Attributes) (key : String) (default : String) : String :=
  match attributes.get? key with
  | some (.text s) => s
  | _ => default

/-- The integers stored under a key, or a default. -/
def getInts (attributes : Attributes) (key : String) (default : List Int) : List Int :=
  match attributes.get? key with
  | some (.ints ns) => ns
  | _ => default

/-- All attributes as one value. -/
def toValue (attributes : Attributes) : Value :=
  .map (attributes.entries.map fun entry => (entry.1, entry.2.toValue))

/-- All attributes as documents hold them. -/
def toRecord (attributes : Attributes) : Value :=
  .map (attributes.entries.map fun entry => (entry.1, entry.2.toRecord))

/-- Attributes made of their own entries, as the constructor makes them of any entries. -/
def copy (attributes : Attributes) : Except Error Attributes :=
  ofValues (attributes.entries.map fun entry => (entry.1, entry.2.toValue))

/-- Values that stand for the attributes under the same keys stand for them all, in their order. -/
theorem ofValues_map {form : Attribute → Value} (h : ∀ a, Attribute.ofValue (form a) = .ok a)
    (attributes : Attributes) :
    ofValues (attributes.entries.map fun entry => (entry.1, form entry.2)) = .ok attributes := by
  have stored (m : Attributes) (entries : Entries Attribute) :
      (entries.map fun entry => (entry.1, form entry.2)).foldlM
        (fun attributes entry => set attributes entry.1 entry.2) m = .ok (m.putAll entries) := by
    induction entries generalizing m with
    | nil => rfl
    | cons entry rest ih => simpa [set, h, OrderedMap.putAll] using ih _
  rw [ofValues, stored]
  exact congrArg _ (OrderedMap.ofEntries_entries attributes)

/-- What documents hold of attributes stands for the attributes. -/
theorem ofValues_toRecord (attributes : Attributes) :
    ofValues (attributes.entries.map fun entry => (entry.1, entry.2.toRecord)) =
      .ok attributes :=
  ofValues_map Attribute.ofValue_toRecord attributes

theorem copy_eq (attributes : Attributes) : attributes.copy = .ok attributes :=
  ofValues_map Attribute.ofValue_toValue attributes

def text (attributes : Attributes) : String := "OpAttrs(" ++ attributes.toValue.shown ++ ")"

end Attributes

end TensorGraph
