import TensorGraph.Digest.Sha256
import TensorGraph.Error
import TensorGraph.Number.LittleEndian
import TensorGraph.Text.Hex

/-!
Content digests. A digest stands for the shape, the element type and the bytes of a tensor; the
digest of zeros alone stands for a tensor that has no bytes yet.
-/

namespace TensorGraph

open Number Text

/-- A digest of 256 bits. -/
structure Digest where
  bytes : List UInt8
  length_eq : bytes.length = 32
deriving DecidableEq, Repr

namespace Digest

/-- The digest of a tensor without bytes. -/
def zero : Digest := ⟨List.replicate 32 0, rfl⟩

instance : Inhabited Digest := ⟨zero⟩

/-- Whether all bytes are zero, as in the digest of contents that are not known. -/
def isZero (d : Digest) : Bool := d == zero

def ofBytes (bytes : List UInt8) : Except Error Digest :=
  if h : bytes.length = 32 then .ok ⟨bytes, h⟩ else .error (.tensor .digestSize)

/-- The digest in lower case digits. -/
def text (d : Digest) : String := bytesHex d.bytes

/-- The digest that 64 digits of either case spell. -/
def parse (s : String) : Except Error Digest :=
  if s.length ≠ 64 then .error (.tensor (.hashLength s.length))
  else match readBytes? s.toList with
    | some bytes =>
      if h : bytes.length = 32 then .ok ⟨bytes, h⟩ else .error (.tensor (.hashCharacter s))
    | none => .error (.tensor (.hashCharacter s))

/-- The text of a digest spells the digest. -/
theorem parse_text (d : Digest) : parse d.text = .ok d := by
  obtain ⟨bytes, h⟩ := d
  have hlong : (bytesHex bytes).length = 64 := by rw [length_bytesHex, h]
  have hread : readBytes? (bytesHex bytes).toList = some bytes := by
    rw [bytesHex, String.toList_ofList, readBytes?_flatMap_byteHex]
  rw [parse, text, if_neg (not_not_intro hlong)]
  simp only [hread, h, dif_pos]

def word64 (n : Nat) : List UInt8 := littleEndian 8 n

/-- What is hashed: the rank and the extents as words, the code of the element type, and the
bytes. -/
def preimage (shape : Shape) (elementType : ElementType) (data : List UInt8) : List UInt8 :=
  (shape.rank :: shape.dims).flatMap word64 ++ UInt8.ofNat elementType.code :: data

def ofMessage (message : List UInt8) : Digest := ⟨Sha256.hash message, Sha256.length_hash message⟩

/-- The digest of a tensor. The rank and the extents have to fit signed words. -/
def compute (shape : Shape) (elementType : ElementType) (data : List UInt8) :
    Except Error Digest :=
  if (shape.rank :: shape.dims).all (· < wordLimit) then .ok (ofMessage (preimage shape elementType data))
  else failWith .overflow

end Digest

end TensorGraph
