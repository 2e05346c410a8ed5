/-!
Hexadecimal digits: one digit, a number of fixed width, and the value of a digit in either case.
-/

namespace TensorGraph.Text

/-- The lower case digit of a value below sixteen. -/
def hexDigit (n : Nat) : Char :=
  if n < 10 then Char.ofNat (48 + n) else Char.ofNat (87 + n)

/-- The value of a digit, in either case. -/
def hexValue? (c : Char) : Option Nat :=
  let n := c.toNat
  if 48 ≤ n ∧ n ≤ 57 then some (n - 48)
  else if 97 ≤ n ∧ n ≤ 102 then some (n - 87)
  else if 65 ≤ n ∧ n ≤ 70 then some (n - 55)
  else none

/-- The last `width` digits of a number, the most significant first. -/
def hexNumber : Nat → Nat → List Char
  | 0, _ => []
  | width + 1, n => hexNumber width (n / 16) ++ [hexDigit (n % 16)]

/-- A number always takes the width asked for. -/
@[simp] theorem length_hexNumber (width n : Nat) : (hexNumber width n).length = width := by
  induction width generalizing n with
  | zero => rfl
  | succ width ih => simp [hexNumber, ih]

theorem hexValue?_hexDigit {n : Nat} (h : n < 16) : hexValue? (hexDigit n) = some n := by
  revert n
  decide

/-- The number that a run of digits spells, the most significant first. -/
def hexRead? (cs : List Char) : Option Nat :=
  cs.foldlM (fun n c => (hexValue? c).map (16 * n + ·)) 0

def byteHex (b : UInt8) : List Char :=
  [hexDigit (b.toNat / 16), hexDigit (b.toNat % 16)]

/-- The bytes that pairs of digits spell, none where a character is left over or is no digit. -/
def readBytes? : List Char → Option (List UInt8)
  | [] => some []
  | [_] => none
  | a :: b :: rest => do
    let high ← hexValue? a
    let low ← hexValue? b
    let bytes ← readBytes? rest
    some (UInt8.ofNat (16 * high + low) :: bytes)

def bytesHex (bytes : List UInt8) : String :=
  String.ofList (bytes.flatMap byteHex)

/-- The digits of bytes read back as the bytes. -/
theorem readBytes?_flatMap_byteHex (bytes : List UInt8) :
    readBytes? (bytes.flatMap byteHex) = some bytes := by
  induction bytes with
  | nil => rfl
  | cons b rest ih =>
    have hb : b.toNat < 256 := b.toNat_lt
    have high := hexValue?_hexDigit (n := b.toNat / 16) (by omega)
    have low := hexValue?_hexDigit (n := b.toNat % 16) (by omega)
    have value : UInt8.ofNat (16 * (b.toNat / 16) + b.toNat % 16) = b := by
      rw [Nat.div_add_mod, UInt8.ofNat_toNat]
    simp only [byteHex, List.flatMap_cons, List.cons_append, List.nil_append, readBytes?, high,
      low, ih, value, Option.bind_eq_bind, Option.bind_some]

theorem length_bytesHex (bytes : List UInt8) : (bytesHex bytes).length = 2 * bytes.length := by
  rw [bytesHex, String.length_ofList]
  induction bytes with
  | nil => rfl
  | cons b rest ih =>
    rw [List.flatMap_cons, List.length_append, ih, List.length_cons]
    simp [byteHex]
    omega

end TensorGraph.Text
