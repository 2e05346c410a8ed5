/-!
The hash function SHA-256: a message is padded to blocks of 64 bytes, each block is expanded to a
schedule of 64 words, and 64 rounds mix the schedule into a state of eight words.
-/

namespace TensorGraph.Sha256

/-- The words added in the rounds: the fractions of the cube roots of the first primes. -/
def roundWords : Array UInt32 := #[
  0x428a2f98, 0x71374491, 0xb5c0fbcf, 0xe9b5dba5, 0x3956c25b, 0x59f111f1, 0x923f82a4, 0xab1c5ed5,
  0xd807aa98, 0x12835b01, 0x243185be, 0x550c7dc3, 0x72be5d74, 0x80deb1fe, 0x9bdc06a7, 0xc19bf174,
  0xe49b69c1, 0xefbe4786, 0x0fc19dc6, 0x240ca1cc, 0x2de92c6f, 0x4a7484aa, 0x5cb0a9dc, 0x76f988da,
  0x983e5152, 0xa831c66d, 0xb00327c8, 0xbf597fc7, 0xc6e00bf3, 0xd5a79147, 0x06ca6351, 0x14292967,
  0x27b70a85, 0x2e1b2138, 0x4d2c6dfc, 0x53380d13, 0x650a7354, 0x766a0abb, 0x81c2c92e, 0x92722c85,
  0xa2bfe8a1, 0xa81a664b, 0xc24b8b70, 0xc76c51a3, 0xd192e819, 0xd6990624, 0xf40e3585, 0x106aa070,
  0x19a4c116, 0x1e376c08, 0x2748774c, 0x34b0bcb5, 0x391c0cb3, 0x4ed8aa4a, 0x5b9cca4f, 0x682e6ff3,
  0x748f82ee, 0x78a5636f, 0x84c87814, 0x8cc70208, 0x90befffa, 0xa4506ceb, 0xbef9a3f7, 0xc67178f2]

/-- The eight words that are carried from round to round. -/
structure State where
  a : UInt32
  b : UInt32
  c : UInt32
  d : UInt32
  e : UInt32
  f : UInt32
  g : UInt32
  h : UInt32

/-- The state before the first block: the fractions of the square roots of the first primes. -/
def State.initial : State :=
  ⟨0x6a09e667, 0xbb67ae85, 0x3c6ef372, 0xa54ff53a, 0x510e527f, 0x9b05688c, 0x1f83d9ab, 0x5be0cd19⟩

/-- A word turned to the right. -/
def turn (x n : UInt32) : UInt32 := (x >>> n) ||| (x <<< (32 - n))

/-- The mix of the earlier schedule word, fifteen places back. -/
def lowSigma0 (x : UInt32) : UInt32 := turn x 7 ^^^ turn x 18 ^^^ (x >>> 3)

/-- The mix of the later schedule word, two places back. -/
def lowSigma1 (x : UInt32) : UInt32 := turn x 17 ^^^ turn x 19 ^^^ (x >>> 10)

/-- The mix of the first working word of a round. -/
def highSigma0 (x : UInt32) : UInt32 := turn x 2 ^^^ turn x 13 ^^^ turn x 22

/-- The mix of the fifth working word of a round. -/
def highSigma1 (x : UInt32) : UInt32 := turn x 6 ^^^ turn x 11 ^^^ turn x 25

/-- The next word of a schedule. -/
def extend (words : Array UInt32) : Array UInt32 :=
  let n := words.size
  words.push (lowSigma1 (words.getD (n - 2) 0) + words.getD (n - 7) 0 +
    lowSigma0 (words.getD (n - 15) 0) + words.getD (n - 16) 0)

/-- The schedule of a block of sixteen words. -/
def schedule (block : List UInt32) : Array UInt32 := Nat.repeat extend 48 block.toArray

def round (s : State) (added word : UInt32) : State :=
  let chosen := (s.e &&& s.f) ^^^ ((s.e ^^^ 0xffffffff) &&& s.g)
  let t1 := s.h + highSigma1 s.e + chosen + added + word
  let majority := (s.a &&& s.b) ^^^ (s.a &&& s.c) ^^^ (s.b &&& s.c)
  let t2 := highSigma0 s.a + majority
  ⟨t1 + t2, s.a, s.b, s.c, s.d + t1, s.e, s.f, s.g⟩

def compress (s : State) (block : List UInt32) : State :=
  let mixed := (roundWords.toList.zip (schedule block).toList).foldl
    (fun s pair => round s pair.1 pair.2) s
  ⟨s.a + mixed.a, s.b + mixed.b, s.c + mixed.c, s.d + mixed.d,
    s.e + mixed.e, s.f + mixed.f, s.g + mixed.g, s.h + mixed.h⟩

/-- The bytes of a word, the most significant first. -/
def wordBytes (x : UInt32) : List UInt8 :=
  [(x >>> 24).toUInt8, (x >>> 16).toUInt8, (x >>> 8).toUInt8, x.toUInt8]

/-- The words that groups of four bytes stand for. -/
def words : List UInt8 → List UInt32
  | a :: b :: c :: d :: rest =>
    ((a.toUInt32 <<< 24) ||| (b.toUInt32 <<< 16) ||| (c.toUInt32 <<< 8) ||| d.toUInt32) ::
      words rest
  | _ => []

/-- How many zero bytes stand between the end mark of a message and its length. -/
def gap (length : Nat) : Nat := (119 - length % 64) % 64

/-- The message with an end mark, zeros, and its length in bits as eight bytes. -/
def padded (message : List UInt8) : List UInt8 :=
  let bits := UInt64.ofNat (8 * message.length)
  message ++ (0x80 : UInt8) :: (List.replicate (gap message.length) (0 : UInt8) ++
    wordBytes (bits >>> 32).toUInt32 ++ wordBytes bits.toUInt32)

/-- The words of a message in blocks of sixteen. -/
def blocks : Nat → List UInt32 → List (List UInt32)
  | 0, _ => []
  | count + 1, ws => ws.take 16 :: blocks count (ws.drop 16)

def State.bytes (s : State) : List UInt8 :=
  wordBytes s.a ++ wordBytes s.b ++ wordBytes s.c ++ wordBytes s.d ++
    wordBytes s.e ++ wordBytes s.f ++ wordBytes s.g ++ wordBytes s.h

def hash (message : List UInt8) : List UInt8 :=
  let text := padded message
  ((blocks (text.length / 64) (words text)).foldl compress State.initial).bytes

/-- A padded message consists of whole blocks. -/
theorem length_padded_mod (message : List UInt8) : (padded message).length % 64 = 0 := by
  simp [padded, gap, wordBytes]
  omega

@[simp] theorem length_hash (message : List UInt8) : (hash message).length = 32 := rfl

end TensorGraph.Sha256
