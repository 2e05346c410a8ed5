import Mathlib.Data.List.Forall2
import TensorGraph.Digest.Basic
import TensorGraph.Tensor.Element

/-!
What is hashed determines what it was made of. No part of it carries its own length: the first word
tells how many words follow, one byte stands behind them, and the rest are the bytes of the
elements. Two messages can therefore only agree part by part, as long as rank and extents fit their
words. What a message describes is laid down apart from the way it is written, by what its bytes
decode as.
-/

namespace TensorGraph

/-- Two messages with the same hash. -/
def Sha256.Collides (message other : List UInt8) : Prop :=
  message ≠ other ∧ Sha256.hash message = Sha256.hash other

namespace Digest

open Number

variable {n m : Nat} {ns ms : List Nat} {shape other : Shape} {a b : ElementType}
  {data rest message bytes : List UInt8} {words : List (List UInt8)}

theorem word64_injective (below : n < wordLimit) (below' : m < wordLimit)
    (same : word64 n = word64 m) : n = m := by
  have word_holds : wordLimit ≤ Nat.pow 256 8 := by decide
  have read := congrArg ofLittleEndian same
  rwa [word64, word64, ofLittleEndian_littleEndian (Nat.lt_of_lt_of_le below word_holds),
    ofLittleEndian_littleEndian (Nat.lt_of_lt_of_le below' word_holds)] at read

/-- As many words as numbers are read off the front of a message, whatever comes behind. -/
theorem flatMap_word64_append_injective (below : ∀ n ∈ ns, n < wordLimit)
    (below' : ∀ m ∈ ms, m < wordLimit) (long : ns.length = ms.length)
    (same : ns.flatMap word64 ++ data = ms.flatMap word64 ++ rest) : ns = ms ∧ data = rest := by
  induction ns generalizing ms with
  | nil =>
    cases ms with
    | nil => exact ⟨rfl, same⟩
    | cons m ms => cases long
  | cons n ns ih =>
    cases ms with
    | nil => cases long
    | cons m ms =>
      obtain ⟨first, below⟩ := List.forall_mem_cons.1 below
      obtain ⟨first', below'⟩ := List.forall_mem_cons.1 below'
      simp only [List.flatMap_cons, List.append_assoc] at same
      obtain ⟨words, same⟩ := List.append_inj same (by simp [word64])
      obtain ⟨rfl, behind⟩ := ih below below' (Nat.succ.inj long) same
      exact ⟨by rw [word64_injective first first' words], behind⟩

theorem code_lt (a : ElementType) : a.code < 256 := by cases a <;> decide

theorem codeByte_injective (same : UInt8.ofNat a.code = UInt8.ofNat b.code) : a = b := by
  have code_eq := congrArg UInt8.toNat same
  rw [UInt8.toNat_ofNat_of_lt' (code_lt a), UInt8.toNat_ofNat_of_lt' (code_lt b)] at code_eq
  exact ElementType.code_injective code_eq

/-- Whether rank and extents fit signed words. -/
def Fits (shape : Shape) : Prop := ∀ n ∈ shape.rank :: shape.dims, n < wordLimit

instance (shape : Shape) : Decidable (Fits shape) :=
  inferInstanceAs (Decidable (∀ n ∈ shape.rank :: shape.dims, n < wordLimit))

/-- **The parts of a message.** Shapes, element types and bytes are the same if they are hashed as
the same message. -/
theorem preimage_injective (fits : Fits shape) (fits' : Fits other)
    (same : preimage shape a data = preimage other b rest) :
    shape = other ∧ a = b ∧ data = rest := by
  obtain ⟨rank_fits, extents_fit⟩ := List.forall_mem_cons.1 fits
  obtain ⟨rank_fits', extents_fit'⟩ := List.forall_mem_cons.1 fits'
  simp only [preimage, List.flatMap_cons, List.append_assoc] at same
  -- The rank comes first: only with it are the extents as many on both sides.
  obtain ⟨rank_words, same⟩ := List.append_inj same (by simp [word64])
  have long : shape.dims.length = other.dims.length :=
    word64_injective rank_fits rank_fits' rank_words
  obtain ⟨dims_eq, same⟩ := flatMap_word64_append_injective extents_fit extents_fit' long same
  obtain ⟨code_eq, behind⟩ := List.cons.inj same
  exact ⟨congrArg Shape.mk dims_eq, codeByte_injective code_eq, behind⟩

theorem compute_eq_ok_iff {d : Digest} :
    compute shape a data = .ok d ↔ Fits shape ∧ d = ofMessage (preimage shape a data) := by
  have fits_iff : (shape.rank :: shape.dims).all (· < wordLimit) = true ↔ Fits shape := by
    simp [Fits]
  by_cases fits : Fits shape
  · rw [compute, if_pos (fits_iff.2 fits)]
    simp [fits, eq_comm]
  · rw [compute, if_neg (fits ∘ fits_iff.1)]
    simp [fits, failWith]

/-- Messages with the same digest are the same, or collide. -/
theorem eq_or_collides {message other : List UInt8} (same : ofMessage message = ofMessage other) :
    message = other ∨ Sha256.Collides message other :=
  Classical.or_iff_not_imp_left.2 fun different => ⟨different, congrArg bytes same⟩

/-! ### What a message describes -/

/-- Bytes that stand for a natural as a signed word. -/
structure IsWord (n : Nat) (bytes : List UInt8) : Prop where
  length_eq : bytes.length = 8
  decode_eq : ElementType.int64.decode bytes = .int n

/-- A message about a tensor, as its format is laid down: words for the rank and the extents, a byte
for the code of the element type, and the bytes of the elements. -/
def Describes (shape : Shape) (a : ElementType) (data message : List UInt8) : Prop :=
  ∃ words code, List.Forall₂ IsWord (shape.rank :: shape.dims) words ∧
    UInt8.toNat code = a.code ∧ message = words.flatten ++ code :: data

theorem ofLittleEndian_lt (bytes : List UInt8) :
    ofLittleEndian bytes < Nat.pow 256 bytes.length := by
  induction bytes with
  | nil => decide
  | cons b rest ih =>
    have low : b.toNat < 256 := b.toNat_lt
    have power : Nat.pow 256 (b :: rest).length = 256 * Nat.pow 256 rest.length := by
      rw [List.length_cons, Nat.pow_eq, Nat.pow_eq, Nat.pow_succ']
    rw [ofLittleEndian, power]
    omega

/-- Only a natural that leaves the sign bit alone has a word, and it has one. -/
theorem isWord_iff : IsWord n bytes ↔ n < wordLimit ∧ bytes = word64 n := by
  have word_holds : wordLimit ≤ Nat.pow 256 8 := by decide
  constructor
  · rintro ⟨length_eq, decode_eq⟩
    have bound := ofLittleEndian_lt bytes
    have written := littleEndian_ofLittleEndian bytes
    rw [length_eq] at bound written
    have signed : ElementType.signedOf 64 (ofLittleEndian bytes) = n := Value.int.inj decode_eq
    rw [ElementType.signedOf] at signed
    split at signed
    · next below =>
      obtain rfl := Int.ofNat_inj.1 signed
      exact ⟨below, written.symm⟩
    · next above =>
      have bits : Nat.pow 256 8 = Nat.pow 2 64 := by decide
      omega
  · rintro ⟨below, rfl⟩
    have read : ofLittleEndian (word64 n) = n :=
      ofLittleEndian_littleEndian (Nat.lt_of_lt_of_le below word_holds)
    have signed : ElementType.signedOf 64 n = n := if_pos below
    exact ⟨length_littleEndian 8 n, congrArg Value.int (read.symm ▸ signed)⟩

theorem forall₂_isWord_iff :
    List.Forall₂ IsWord ns words ↔ (∀ n ∈ ns, n < wordLimit) ∧ words = ns.map word64 := by
  induction ns generalizing words with
  | nil => simp
  | cons n ns ih =>
    rw [List.forall₂_cons_left_iff, List.forall_mem_cons, List.map_cons]
    constructor
    · rintro ⟨word, later, first, others, rfl⟩
      obtain ⟨below, rfl⟩ := isWord_iff.1 first
      obtain ⟨rest_below, rfl⟩ := ih.1 others
      exact ⟨⟨below, rest_below⟩, rfl⟩
    · rintro ⟨⟨below, rest_below⟩, rfl⟩
      exact ⟨_, _, isWord_iff.2 ⟨below, rfl⟩, ih.2 ⟨rest_below, rfl⟩, rfl⟩

/-- The message that is hashed is the one that describes the tensor. -/
theorem describes_iff :
    Describes shape a data message ↔ Fits shape ∧ message = preimage shape a data := by
  have written : ((shape.rank :: shape.dims).map word64).flatten =
      (shape.rank :: shape.dims).flatMap word64 := (List.flatMap_def ..).symm
  constructor
  · rintro ⟨words, code, numbers, tag, rfl⟩
    obtain ⟨fits, rfl⟩ := forall₂_isWord_iff.1 numbers
    obtain rfl : code = UInt8.ofNat a.code := by rw [← tag, UInt8.ofNat_toNat]
    exact ⟨fits, by rw [written, preimage]⟩
  · rintro ⟨fits, rfl⟩
    exact ⟨_, _, forall₂_isWord_iff.2 ⟨fits, rfl⟩, UInt8.toNat_ofNat_of_lt' (code_lt a),
      by rw [written, preimage]⟩

/-- **A message describes one tensor.** What is hashed for a tensor is the one message that describes
it; there is one whenever rank and extents have signed words, and else nothing is hashed. Whatever
the lengths of the bytes at its end, a message describes one shape, one element type and one run of
bytes. -/
theorem describes_injective :
    (∀ shape a data d, compute shape a data = .ok d ↔
      ∃ message, Describes shape a data message ∧ d = ofMessage message) ∧
    (∀ shape a data message, Describes shape a data message ↔
      (shape.rank < wordLimit ∧ ∀ n ∈ shape.dims, n < wordLimit) ∧
        message = preimage shape a data) ∧
    ∀ message shape a data other b rest,
      Describes shape a data message → Describes other b rest message →
      shape = other ∧ a = b ∧ data = rest := by
  refine ⟨fun shape a data d => ?hashed, fun shape a data message => ?described,
    fun message shape a data other b rest first second => ?one⟩
  case hashed =>
    simp only [compute_eq_ok_iff, describes_iff, and_assoc, exists_and_left, exists_eq_left]
  case described =>
    rw [describes_iff, Fits, List.forall_mem_cons]
  case one =>
    obtain ⟨fits, rfl⟩ := describes_iff.1 first
    obtain ⟨fits', same⟩ := describes_iff.1 second
    exact preimage_injective fits fits' same

/-- The message of two small integers describes no scalar, as its first word is not zero. -/
theorem describes_injective_pair :
    Describes ⟨[2]⟩ .int8 [1, 2] (preimage ⟨[2]⟩ .int8 [1, 2]) ∧
    compute ⟨[2]⟩ .int8 [1, 2] = .ok (ofMessage (preimage ⟨[2]⟩ .int8 [1, 2])) ∧
    ∀ b rest, ¬ Describes .scalar b rest (preimage ⟨[2]⟩ .int8 [1, 2]) := by
  obtain ⟨hashed, described, one⟩ := describes_injective
  have pair := (described ⟨[2]⟩ .int8 [1, 2] _).2 ⟨by decide, rfl⟩
  refine ⟨pair, (hashed _ _ _ _).2 ⟨_, pair, rfl⟩, fun b rest other => ?_⟩
  have shape_eq := (one _ _ _ _ _ _ _ pair other).1
  cases shape_eq

end Digest

end TensorGraph
