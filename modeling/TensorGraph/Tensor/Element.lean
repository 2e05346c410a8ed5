import TensorGraph.Error
import TensorGraph.Number.LittleEndian

/-!
Elements as bytes. Integers stand in two's complement and floats in the binary formats, the least
significant byte first; a complex number is its real part before its imaginary part. Encoding
converts a loose value to the type of the element, and always yields as many bytes as the type has.
-/

namespace TensorGraph

open Number Text

namespace ElementType

/-- The format of a float, or of each part of a complex number. -/
def format : ElementType → Format
  | .float16 => .half
  | .bfloat16 => ⟨7, 8⟩
  | .float32 | .complex64 => .single
  | _ => .double

/-- A natural as the signed integer with the same bits. -/
def signedOf (bits n : Nat) : Int := if n < Nat.pow 2 (bits - 1) then n else n - Nat.pow 2 bits

def decode (t : ElementType) (bytes : List UInt8) : Value :=
  let word := ofLittleEndian bytes
  match t.category with
  | .bool => .bool (word != 0)
  | .unsigned => .int word
  | .integer => .int (signedOf (8 * t.size) word)
  | .float => .float (.ofFormat t.format word)
  | .complex =>
    let half := Nat.pow 2 (4 * t.size)
    .complex (.ofFormat t.format (word % half)) (.ofFormat t.format (word / half))

/-- The bounds of an integer type: the least value, and the first one above the greatest. -/
def bounds (t : ElementType) : Int × Int :=
  if t.category = .integer then (-Nat.pow 2 (8 * t.size - 1), Nat.pow 2 (8 * t.size - 1))
  else (0, Nat.pow 2 (8 * t.size))

end ElementType

/-- The integer that a text spells: digits behind a sign, with blanks around them. -/
def integerOfText? (s : String) : Option Int :=
  let (negative, digits) := Binary64.splitSign (trim s.toList)
  if digits.isEmpty || !digits.all Char.isDigit then none
  else
    let n : Int := Binary64.natOfDigits digits
    some (if negative then -n else n)

/-- A value as an integer. A float loses its fraction; one that is infinite is too large. -/
def integerOf : Value → Except Error Int
  | .int n => .ok n
  | .bool b => .ok (if b then 1 else 0)
  | .float x =>
    match x.truncate? with
    | some n => .ok n
    | none => failWith (if x.isUndefined then .badValue else .overflow)
  | .text s => orError (integerOfText? s) (.fault .badValue)
  | .list _ => failWith .badValue
  | .tuple _ => failWith .badValue
  | _ => failWith .wrongForm

/-- A value as a real number. A missing one is no number. -/
def realOf : Value → Except Error Binary64
  | .null => .ok .nan
  | .int n => orError (Binary64.ofInt? n) (.fault .overflow)
  | .bool b => .ok (if b then .one else .zero)
  | .float x => .ok x
  | .text s => orError (Binary64.read? (String.ofList (trim s.toList))) (.fault .badValue)
  | .list _ => failWith .badValue
  | .tuple _ => failWith .badValue
  | _ => failWith .wrongForm

def complexOf : Value → Except Error (Binary64 × Binary64)
  | .null => .ok (.nan, .nan)
  | .complex re im => .ok (re, im)
  | .list _ => failWith .wrongForm
  | .tuple _ => failWith .wrongForm
  | value => do return (← realOf value, .zero)

namespace ElementType

/-- The number whose bytes stand for a value. -/
def wordOf (t : ElementType) (value : Value) : Except Error Nat :=
  match t.category with
  | .bool => .ok (if value.isPresent then 1 else 0)
  | .unsigned | .integer => do
    let n ← integerOf value
    let (low, high) := t.bounds
    if n < low ∨ high ≤ n then failWith .overflow
    else return (n % Nat.pow 2 (8 * t.size)).toNat
  | .float => do return (← realOf value).toFormat t.format
  | .complex => do
    let (re, im) ← complexOf value
    return re.toFormat t.format + im.toFormat t.format * Nat.pow 2 (4 * t.size)

def encode (t : ElementType) (value : Value) : Except Error (List UInt8) := do
  return littleEndian t.size (← t.wordOf value)

/-- Encoding yields as many bytes as the type has. -/
theorem length_encode {t : ElementType} {value : Value} {bytes : List UInt8}
    (h : t.encode value = .ok bytes) : bytes.length = t.size := by
  cases hw : t.wordOf value with
  | error e => simp [encode, hw, bind, Except.bind] at h
  | ok word =>
    simp only [encode, hw, bind, Except.bind, pure, Except.pure, Except.ok.injEq] at h
    rw [← h, length_littleEndian]

end ElementType

end TensorGraph
