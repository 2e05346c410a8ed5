import TensorGraph.ElementType.Basic

/-!
Notations for the items of foreign arrays: a byte order mark, a letter for the kind and a width,
or a name. Some of the types that can be written so are element types of tensors; the others only
have a name and a width. Several notations between commas make a record.
-/

namespace TensorGraph

open Text

/-- The type of a single item of a foreign array. An item of several bytes may have its most
significant byte first. -/
inductive ItemType where
  | number (t : ElementType) (swapped : Bool)
  /-- A float of sixteen bytes. -/
  | extended (swapped : Bool)
  /-- Two floats of sixteen bytes. -/
  | extendedPair (swapped : Bool)
  | bytes (count : Nat)
  /-- Characters of four bytes. -/
  | text (count : Nat) (swapped : Bool)
  | raw (count : Nat)
  /-- A point in time, counted in a unit. -/
  | date (unit : String) (swapped : Bool)
  /-- A span of time, counted in a unit. -/
  | span (unit : String) (swapped : Bool)
  /-- A reference, which no run of bytes can stand for. -/
  | object
deriving DecidableEq, Repr

namespace ItemType

def size : ItemType → Nat
  | number t _ => t.size
  | extended _ => 16
  | extendedPair _ => 32
  | bytes count => count
  | text count _ => 4 * count
  | raw count => count
  | date _ _ => 8
  | span _ _ => 8
  | object => 8

def orderMark (swapped : Bool) : String := if swapped then ">" else "<"

def kindLetter : ElementCategory → String
  | .float => "f"
  | .integer => "i"
  | .unsigned => "u"
  | .bool => "b"
  | .complex => "c"

/-- The width in a notation; none where it is left open. -/
def widthText (count : Nat) : String := if count = 0 then "" else toString count

/-- The notation inside a record. Items without a byte order have no mark. -/
def notationText : ItemType → String
  | number .bool _ => "?"
  | number t swapped =>
    (if t.size = 1 then "" else orderMark swapped) ++ kindLetter t.category ++ toString t.size
  | extended swapped => orderMark swapped ++ "f16"
  | extendedPair swapped => orderMark swapped ++ "c32"
  | bytes count => "S" ++ widthText count
  | text count swapped => orderMark swapped ++ "U" ++ widthText count
  | raw count => "V" ++ widthText count
  | date unit swapped => orderMark swapped ++ "M8" ++ unit
  | span unit swapped => orderMark swapped ++ "m8" ++ unit
  | object => "O"

/-- The name of the type of an item: a word for numbers in the usual byte order, the notation for
all else. -/
def name : ItemType → String
  | number t false => t.name
  | extended false => "float128"
  | extendedPair false => "complex256"
  | date unit false => "datetime64" ++ unit
  | span unit false => "timedelta64" ++ unit
  | bytes count => "|S" ++ toString count
  | raw count => "|V" ++ toString count
  | text count swapped => orderMark swapped ++ "U" ++ toString count
  | object => "object"
  | item => item.notationText

/-- The item with its bytes in the other order; a single byte has no order. -/
def withOrder (swapped : Bool) : ItemType → ItemType
  | number t _ => number t (swapped && t.size != 1)
  | extended _ => extended swapped
  | extendedPair _ => extendedPair swapped
  | text count _ => text count swapped
  | date unit _ => date unit swapped
  | span unit _ => span unit swapped
  | item => item

/-- Types by a single letter. -/
def letters : List (Char × ItemType) :=
  [('?', number .bool false), ('b', number .int8 false), ('B', number .uint8 false),
    ('h', number .int16 false), ('H', number .uint16 false), ('i', number .int32 false),
    ('I', number .uint32 false), ('l', number .int64 false), ('L', number .uint64 false),
    ('q', number .int64 false), ('Q', number .uint64 false), ('p', number .int64 false),
    ('P', number .uint64 false), ('n', number .int64 false), ('N', number .uint64 false),
    ('e', number .float16 false), ('f', number .float32 false), ('d', number .float64 false),
    ('g', extended false), ('F', number .complex64 false), ('D', number .complex128 false),
    ('G', extendedPair false), ('S', bytes 0), ('U', text 0 false), ('V', raw 0), ('c', bytes 1),
    ('M', date "" false), ('m', span "" false), ('O', object)]

/-- Types by a letter and a width. -/
def widths : List (String × ItemType) :=
  [("b1", number .bool false), ("i1", number .int8 false), ("i2", number .int16 false),
    ("i4", number .int32 false), ("i8", number .int64 false), ("u1", number .uint8 false),
    ("u2", number .uint16 false), ("u4", number .uint32 false), ("u8", number .uint64 false),
    ("f2", number .float16 false), ("f4", number .float32 false), ("f8", number .float64 false),
    ("f16", extended false), ("c8", number .complex64 false), ("c16", number .complex128 false),
    ("c32", extendedPair false), ("O8", object)]

/-- Types by a word. -/
def words : List (String × ItemType) :=
  [("bool", number .bool false), ("bool_", number .bool false), ("byte", number .int8 false),
    ("int8", number .int8 false), ("ubyte", number .uint8 false), ("uint8", number .uint8 false),
    ("short", number .int16 false), ("int16", number .int16 false),
    ("ushort", number .uint16 false), ("uint16", number .uint16 false),
    ("intc", number .int32 false), ("int32", number .int32 false),
    ("uintc", number .uint32 false), ("uint32", number .uint32 false),
    ("int", number .int64 false), ("int_", number .int64 false), ("intp", number .int64 false),
    ("long", number .int64 false), ("longlong", number .int64 false),
    ("int64", number .int64 false), ("uint", number .uint64 false),
    ("uintp", number .uint64 false), ("ulong", number .uint64 false),
    ("ulonglong", number .uint64 false), ("uint64", number .uint64 false),
    ("half", number .float16 false), ("float16", number .float16 false),
    ("single", number .float32 false), ("float32", number .float32 false),
    ("float", number .float64 false), ("double", number .float64 false),
    ("float64", number .float64 false), ("longdouble", extended false),
    ("float128", extended false), ("csingle", number .complex64 false),
    ("complex64", number .complex64 false), ("complex", number .complex128 false),
    ("cdouble", number .complex128 false), ("complex128", number .complex128 false),
    ("clongdouble", extendedPair false), ("complex256", extendedPair false),
    ("str", text 0 false), ("str_", text 0 false), ("bytes", bytes 0), ("bytes_", bytes 0),
    ("void", raw 0), ("object", object), ("object_", object)]

/-- The units in which time can be counted. -/
def timeUnits : List String :=
  ["Y", "M", "W", "D", "h", "m", "s", "ms", "us", "ns", "ps", "fs", "as"]

/-- The unit of a time, between square brackets: a word, behind a number of them that is left
out if it is one. No unit at all, or the general one, is left out. -/
def unit? : List Char → Option String
  | [] => some ""
  | '[' :: rest =>
    match rest.reverse with
    | ']' :: inner =>
      let inner := inner.reverse
      let count := inner.takeWhile Char.isDigit
      let word := String.ofList (inner.dropWhile Char.isDigit)
      if count.isEmpty && word = "generic" then some ""
      else if !timeUnits.contains word || count = ['0'] then none
      else
        let count := if count = ['1'] then "" else String.ofList count
        some ("[" ++ count ++ word ++ "]")
    | _ => none
  | _ => none

/-- The rest of a text behind a start. -/
def behind? : List Char → List Char → Option (List Char)
  | [], cs => some cs
  | s :: start, c :: cs => if s = c then behind? start cs else none
  | _ :: _, [] => none

/-- A point or a span of time. -/
def time? (cs : List Char) : Option ItemType :=
  let after (long short : String) : Option (List Char) :=
    (behind? long.toList cs).or (behind? short.toList cs)
  match after "datetime64" "M8", after "timedelta64" "m8" with
  | some rest, _ => (unit? rest).map (date · false)
  | _, some rest => (unit? rest).map (span · false)
  | none, none => none

/-- A letter for items of any width, with the width. -/
def sized? : List Char → Option ItemType
  | c :: digits =>
    if digits.isEmpty || !digits.all Char.isDigit then none
    else
      let count := digits.foldl (fun n d => 10 * n + (d.toNat - 48)) 0
      if c = 'S' then some (bytes count)
      else if c = 'U' then some (text count false)
      else if c = 'V' then some (raw count)
      else none
  | [] => none

/-- A notation without a byte order mark. -/
def unmarked? : List Char → Option ItemType
  | [c] => letters.lookup c
  | cs => (time? cs).or ((widths.lookup (String.ofList cs)).or (sized? cs))

/-- The type of an item that a notation stands for. -/
def parse? (cs : List Char) : Option ItemType :=
  match cs with
  | '>' :: rest => (unmarked? rest).map (withOrder true)
  | '<' :: rest => unmarked? rest
  | '=' :: rest => unmarked? rest
  | '|' :: rest => unmarked? rest
  | cs => (unmarked? cs).or (words.lookup (String.ofList cs))

end ItemType

/-- The type of the items of a foreign array. -/
inductive ArrayType where
  | single (item : ItemType)
  | record (fields : List ItemType)
deriving DecidableEq, Repr

namespace ArrayType

/-- The item types of which an array type is made. -/
def items : ArrayType → List ItemType
  | single item => [item]
  | record fields => fields

def size (t : ArrayType) : Nat := (t.items.map ItemType.size).foldr (· + ·) 0

/-- Whether runs of bytes can stand for the items. -/
def isReadable (t : ArrayType) : Bool := t.size != 0 && !t.items.contains .object

/-- The element type that has the same items, if there is one. -/
def elementType? : ArrayType → Option ElementType
  | single (.number t false) => some t
  | _ => none

/-- The name of a type; a record names its fields by number. -/
def name : ArrayType → String
  | single item => item.name
  | record fields =>
    let shown := fields.mapIdx fun k item =>
      "('f" ++ toString k ++ "', '" ++ item.notationText ++ "')"
    "[" ++ String.intercalate ", " shown ++ "]"

/-- The parts of a text between commas. -/
def splitCommas (cs : List Char) : List (List Char) := cs.splitOnP (· == ',')

/-- The type that a notation stands for. -/
def parse? (notationText : String) : Option ArrayType :=
  match splitCommas notationText.toList with
  | [cs] => (ItemType.parse? cs).map single
  | parts => (parts.mapM fun part => ItemType.parse? (trim part)).map record

end ArrayType

end TensorGraph
