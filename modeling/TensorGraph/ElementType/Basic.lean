import TensorGraph.Text.Blank
import TensorGraph.Text.Letters

/-!
Element types: what a tensor is made of, how wide one element is, and which type a mixed
operation yields.
-/

namespace TensorGraph

/-- Kinds of element types, which decide how two types mix. -/
inductive ElementCategory where
  | float | integer | unsigned | bool | complex
deriving DecidableEq, Repr

namespace ElementCategory

def name : ElementCategory → String
  | .float => "float"
  | .integer => "integer"
  | .unsigned => "unsigned"
  | .bool => "bool"
  | .complex => "complex"

end ElementCategory

/-- The scalar type of the elements of a tensor. -/
inductive ElementType where
  | float16 | bfloat16 | float32 | float64
  | int8 | int16 | int32 | int64
  | uint8 | uint16 | uint32 | uint64
  | bool | complex64 | complex128
deriving DecidableEq, Repr, Inhabited

namespace ElementType

/-- Every element type, in the order of the codes. -/
def all : List ElementType :=
  [.float16, .bfloat16, .float32, .float64, .int8, .int16, .int32, .int64,
    .uint8, .uint16, .uint32, .uint64, .bool, .complex64, .complex128]

def name : ElementType → String
  | .float16 => "float16"
  | .bfloat16 => "bfloat16"
  | .float32 => "float32"
  | .float64 => "float64"
  | .int8 => "int8"
  | .int16 => "int16"
  | .int32 => "int32"
  | .int64 => "int64"
  | .uint8 => "uint8"
  | .uint16 => "uint16"
  | .uint32 => "uint32"
  | .uint64 => "uint64"
  | .bool => "bool"
  | .complex64 => "complex64"
  | .complex128 => "complex128"

def size : ElementType → Nat
  | .int8 | .uint8 | .bool => 1
  | .float16 | .bfloat16 | .int16 | .uint16 => 2
  | .float32 | .int32 | .uint32 => 4
  | .float64 | .int64 | .uint64 | .complex64 => 8
  | .complex128 => 16

def category : ElementType → ElementCategory
  | .float16 | .bfloat16 | .float32 | .float64 => .float
  | .int8 | .int16 | .int32 | .int64 => .integer
  | .uint8 | .uint16 | .uint32 | .uint64 => .unsigned
  | .bool => .bool
  | .complex64 | .complex128 => .complex

/-- The place of a type among all types: its tag in content digests. -/
def code (t : ElementType) : Nat := all.idxOf t

/-- Whether the elements are real numbers with fractions. -/
def isFloating (t : ElementType) : Bool := t.category = .float

/-- Whether the elements are integers, with a sign or without. -/
def isInteger (t : ElementType) : Bool := t.category = .integer || t.category = .unsigned

/-- Whether the elements can be negative or have a negative part. -/
def isSigned (t : ElementType) : Bool :=
  t.category = .float || t.category = .integer || t.category = .complex

/-- Whether the elements are pairs of a real and an imaginary part. -/
def isComplex (t : ElementType) : Bool := t.category = .complex

/-- Whether the elements can be looked at as an array of numbers: every type but `bfloat16`. -/
def hasView (t : ElementType) : Bool := t ≠ .bfloat16

/-- The type with a canonical name. -/
def ofName? (s : String) : Option ElementType := all.find? (·.name = s)

/-- The type that a text names: blanks around the name, the case of its letters and one leading
`dt` do not matter. -/
def parse? (s : String) : Option ElementType :=
  let key := (Text.trim s.toList).map Text.lowered
  let key := match key with
    | 'd' :: 't' :: rest => rest
    | _ => key
  ofName? (String.ofList key)

/-- The rank of a type inside its category. -/
def priority : ElementType → Nat
  | .bool => 0
  | .int8 | .uint8 => 1
  | .int16 | .uint16 => 2
  | .int32 | .uint32 => 3
  | .int64 | .uint64 => 4
  | .float16 => 10
  | .bfloat16 => 11
  | .float32 => 20
  | .float64 => 30
  | .complex64 => 40
  | .complex128 => 50

/-- The type of the higher rank; of two equal ones the first. -/
def higher (a b : ElementType) : ElementType := if b.priority ≤ a.priority then a else b

/-- The signed type that holds a signed and an unsigned integer, of which the wider has this many
bytes. Eight bytes have no wider partner. -/
def signedFor (size : Nat) : ElementType :=
  if size = 1 then .int16 else if size = 2 then .int32 else .int64

/-- A float beside a type of another category: an integer of eight bytes asks for the widest
float. -/
def floatBeside (float other : ElementType) : ElementType :=
  if other = .int64 ∨ other = .uint64 then .float64 else float

/-- The result type of an operation on two types. Complex comes before float, float before the
integers and truth values; integers of mixed sign go to the next wider signed type, and a truth
value yields to the other operand. -/
def promote (a b : ElementType) : ElementType :=
  if a = b then a
  else if a.isComplex || b.isComplex then
    if a = .complex128 ∨ b = .complex128 then .complex128 else .complex64
  else if a.isFloating || b.isFloating then
    if a.category = b.category then higher a b
    else if a.isFloating then floatBeside a b else floatBeside b a
  else if a.isInteger && b.isInteger then
    if a.category = b.category then higher a b else signedFor (max a.size b.size)
  else if a.category = .bool then b
  else a

/-- Every cast is allowed; some lose precision. -/
def canCast (_source _target : ElementType) : Bool := true

/-- Whether a cast may lose precision: into fewer bytes, from a float to an integer, from complex
to real, or from `float16` to the shorter significand of `bfloat16`. -/
def mayLosePrecision (source target : ElementType) : Bool :=
  if source = target then false
  else
    target.size < source.size || (source.isFloating && target.isInteger) ||
      (source.isComplex && !target.isComplex) || (source = .float16 && target = .bfloat16)

theorem mem_all (t : ElementType) : t ∈ all := by cases t <;> decide

theorem ofName?_name (t : ElementType) : ofName? t.name = some t := by cases t <;> decide

theorem size_pos (t : ElementType) : 0 < t.size := by cases t <;> decide

theorem code_injective {a b : ElementType} (h : a.code = b.code) : a = b := by
  revert h
  cases a <;> cases b <;> decide

/-- The order of the operands does not matter. -/
theorem promote_comm (a b : ElementType) : promote a b = promote b a := by
  cases a <;> cases b <;> decide

end ElementType

end TensorGraph
