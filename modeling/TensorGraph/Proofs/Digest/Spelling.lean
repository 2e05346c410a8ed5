import TensorGraph.Digest.Basic

/-!
Digests as text. Reading is described by what it leaves of a text: the bytes that were read are the
ones whose digits are the text in lower case. So a text has at most one reading, writing it again
only lowers its letters, and what cannot be read is told by its characters alone.
-/

namespace TensorGraph

open Text

/-! ### Digits -/

namespace Text

variable {c high low : Char} {n : Nat} {cs : List Char} {b : UInt8} {bytes : List UInt8}

/-- A hexadecimal digit, in either case. -/
def IsHexDigit (c : Char) : Prop :=
  ('0' ≤ c ∧ c ≤ '9') ∨ ('a' ≤ c ∧ c ≤ 'f') ∨ ('A' ≤ c ∧ c ≤ 'F')

instance : DecidablePred IsHexDigit := fun _ => inferInstanceAs (Decidable (_ ∨ _))

theorem isHexDigit_iff : IsHexDigit c ↔ (48 ≤ c.toNat ∧ c.toNat ≤ 57) ∨
    (97 ≤ c.toNat ∧ c.toNat ≤ 102) ∨ (65 ≤ c.toNat ∧ c.toNat ≤ 70) :=
  Iff.rfl

theorem toNat_toLower (c : Char) :
    c.toLower.toNat = if 65 ≤ c.toNat ∧ c.toNat ≤ 90 then c.toNat + 32 else c.toNat := by
  unfold Char.toLower
  by_cases capital : c.val ≥ 'A'.val ∧ c.val ≤ 'Z'.val
  · have range : 65 ≤ c.toNat ∧ c.toNat ≤ 90 := capital
    have small : c.val.toNat + 32 < 2 ^ 32 := by
      have bound : c.val.toNat ≤ 90 := range.2
      omega
    rw [dif_pos capital, if_pos range]
    exact (UInt32.toNat_add _ _).trans (Nat.mod_eq_of_lt small)
  · have outside : ¬ (65 ≤ c.toNat ∧ c.toNat ≤ 90) := capital
    rw [dif_neg capital, if_neg outside]

theorem toNat_hexDigit (small : n < 16) :
    (hexDigit n).toNat = if n < 10 then 48 + n else 87 + n := by
  revert n
  decide

/-- The value of a digit is the one whose lower case digit it is. -/
theorem hexValue?_eq_some_iff : hexValue? c = some n ↔ n < 16 ∧ c.toLower = hexDigit n := by
  rw [and_congr_right fun small => by
    rw [← Char.toNat_inj, toNat_toLower, toNat_hexDigit small]]
  simp only [hexValue?]
  grind

theorem exists_hexValue?_iff : (∃ n, hexValue? c = some n) ↔ IsHexDigit c := by
  rw [← Option.isSome_iff_exists, isHexDigit_iff]
  simp only [hexValue?]
  grind

/-! ### Bytes -/

theorem readBytes?_cons_cons_eq_some_iff : readBytes? (high :: low :: cs) = some bytes ↔
    ∃ m n later, hexValue? high = some m ∧ hexValue? low = some n ∧ readBytes? cs = some later ∧
      UInt8.ofNat (16 * m + n) :: later = bytes := by
  simp [readBytes?, Option.bind_eq_some_iff]

theorem byteHex_eq_iff : byteHex b = [high.toLower, low.toLower] ↔
    ∃ m n, hexValue? high = some m ∧ hexValue? low = some n ∧ UInt8.ofNat (16 * m + n) = b := by
  simp only [hexValue?_eq_some_iff, byteHex, List.cons.injEq, and_true]
  constructor
  · rintro ⟨high_eq, low_eq⟩
    have bound : b.toNat < 256 := b.toNat_lt
    refine ⟨_, _, ⟨?_, high_eq.symm⟩, ⟨?_, low_eq.symm⟩, ?_⟩
    · omega
    · omega
    · rw [Nat.div_add_mod, UInt8.ofNat_toNat]
  · rintro ⟨m, n, ⟨m_small, high_eq⟩, ⟨n_small, low_eq⟩, rfl⟩
    have value : (UInt8.ofNat (16 * m + n)).toNat = 16 * m + n :=
      UInt8.toNat_ofNat_of_lt' (by show _ < 256; omega)
    rw [value, high_eq, low_eq]
    constructor
    · congr 1
      omega
    · congr 1
      omega

/-- Bytes are read if their digits are the text in lower case. -/
theorem readBytes?_eq_some_iff :
    readBytes? cs = some bytes ↔ bytes.flatMap byteHex = cs.map Char.toLower := by
  induction cs using readBytes?.induct generalizing bytes with
  | case1 => cases bytes <;> simp [readBytes?, byteHex]
  | case2 => cases bytes <;> simp [readBytes?, byteHex]
  | case3 high low rest ih =>
    rw [readBytes?_cons_cons_eq_some_iff]
    simp only [ih]
    cases bytes with
    | nil => simp
    | cons b later =>
      have pair : (b :: later).flatMap byteHex = (high :: low :: rest).map Char.toLower ↔
          byteHex b = [high.toLower, low.toLower] ∧
            later.flatMap byteHex = rest.map Char.toLower := by
        simp [byteHex, and_assoc]
      rw [pair, byteHex_eq_iff]
      grind

/-- What can be read is an even number of digits. -/
theorem exists_readBytes?_iff :
    (∃ bytes, readBytes? cs = some bytes) ↔ cs.length % 2 = 0 ∧ ∀ c ∈ cs, IsHexDigit c := by
  induction cs using readBytes?.induct with
  | case1 => simp [readBytes?]
  | case2 => simp [readBytes?]
  | case3 high low rest ih =>
    have step : (∃ bytes, readBytes? (high :: low :: rest) = some bytes) ↔
        IsHexDigit high ∧ IsHexDigit low ∧ ∃ later, readBytes? rest = some later := by
      simp only [readBytes?_cons_cons_eq_some_iff, ← exists_hexValue?_iff]
      grind
    rw [step, ih]
    simp only [List.length_cons, List.forall_mem_cons, Nat.add_mod_right, Nat.add_assoc]
    grind

end Text

namespace Digest

variable {d : Digest} {s : String}

/-- The text is made of as many hexadecimal digits as a digest is spelled with. -/
def IsSpelling (s : String) : Prop := s.length = 64 ∧ ∀ c ∈ s.toList, IsHexDigit c

instance (s : String) : Decidable (IsSpelling s) :=
  @instDecidableAnd _ _ (instDecidableEqNat _ _) (List.decidableBAll IsHexDigit s.toList)

theorem length_text (d : Digest) : d.text.length = 64 := by
  rw [text, length_bytesHex, d.length_eq]

theorem text_eq_toLower_iff :
    d.text = s.toLower ↔ d.bytes.flatMap byteHex = s.toList.map Char.toLower := by
  have lowered : s.toLower.toList = s.toList.map Char.toLower := String.toList_map
  rw [← String.toList_inj, text, bytesHex, String.toList_ofList, lowered]

theorem parse_eq_ok_iff_readBytes? :
    parse s = .ok d ↔ s.length = 64 ∧ readBytes? s.toList = some d.bytes := by
  rw [parse]
  by_cases long : s.length = 64
  · rw [if_neg (not_not_intro long), and_iff_right long]
    cases readBytes? s.toList with
    | none => simp
    | some bytes =>
      obtain ⟨own, own_length⟩ := d
      by_cases same : bytes = own
      · subst same
        simp [own_length]
      · by_cases h : bytes.length = 32 <;> simp [h, same]
  · simp [long]

/-- A text is read as the digest whose text it is, in lower case. -/
theorem parse_eq_ok_iff : parse s = .ok d ↔ d.text = s.toLower := by
  rw [parse_eq_ok_iff_readBytes?, readBytes?_eq_some_iff, ← text_eq_toLower_iff]
  apply and_iff_right_of_imp
  intro same
  have kept : s.toLower.length = s.length := String.length_map
  rw [← kept, ← same, length_text]

theorem exists_parse_iff : (∃ d, parse s = .ok d) ↔ IsSpelling s := by
  constructor
  · rintro ⟨d, read⟩
    obtain ⟨long, read_bytes⟩ := parse_eq_ok_iff_readBytes?.1 read
    exact ⟨long, (exists_readBytes?_iff.1 ⟨_, read_bytes⟩).2⟩
  · rintro ⟨long, digits⟩
    have even : s.toList.length % 2 = 0 := by rw [String.length_toList, long]
    obtain ⟨bytes, read_bytes⟩ := exists_readBytes?_iff.2 ⟨even, digits⟩
    have count : bytes.length = 32 := by
      have spelled := congrArg List.length (readBytes?_eq_some_iff.1 read_bytes)
      rw [← String.length_ofList, ← bytesHex, length_bytesHex, List.length_map,
        String.length_toList, long] at spelled
      omega
    exact ⟨⟨bytes, count⟩, parse_eq_ok_iff_readBytes?.2 ⟨long, read_bytes⟩⟩

/-- What cannot be read is told by its length, or else by its characters. -/
theorem parse_of_not_isSpelling (other : ¬ IsSpelling s) : parse s =
    .error (.tensor (if s.length = 64 then .hashCharacter s else .hashLength s.length)) := by
  by_cases long : s.length = 64
  · have unread : readBytes? s.toList = none := by
      refine Option.eq_none_iff_forall_ne_some.2 fun bytes read => other ⟨long, ?_⟩
      exact (exists_readBytes?_iff.1 ⟨bytes, read⟩).2
    rw [parse, if_neg (not_not_intro long), unread, if_pos long]
  · rw [parse, if_pos long, if_neg long]

/-- **Reading and writing digests.** Every digest is read back from its text. A text is read if and
only if it is 64 hexadecimal digits, in either case and with nothing around them; what is read is
then spelled by the text in lower case. Every other text is refused for its length or, if that is
right, for its characters. -/
theorem parse_iff_spelling :
    (∀ d : Digest, IsSpelling d.text ∧ parse d.text = .ok d) ∧
    ∀ s : String,
      ((∃ d, parse s = .ok d) ↔ IsSpelling s) ∧
      (∀ d, parse s = .ok d → d.text = s.toLower) ∧
      (¬ IsSpelling s → parse s =
        .error (.tensor (if s.length = 64 then .hashCharacter s else .hashLength s.length))) :=
  ⟨fun d => ⟨exists_parse_iff.1 ⟨d, parse_text d⟩, parse_text d⟩,
    fun _ => ⟨exists_parse_iff, fun _ => parse_eq_ok_iff.1, parse_of_not_isSpelling⟩⟩

/-- Capitals and small letters in one text. -/
def mixedSpelling : String := "00112233445566778899aAbBcCdDeEfF0F1E2D3C4B5A69788796a5b4c3d2e1f0"

/-- The same text, where a full-width digit stands for the first one. -/
def lookAlike : String := "\uff100112233445566778899aAbBcCdDeEfF0F1E2D3C4B5A69788796a5b4c3d2e1f0"

theorem parse_iff_spelling_mixed :
    (∃ d, parse mixedSpelling = .ok d ∧
      d.text = "00112233445566778899aabbccddeeff0f1e2d3c4b5a69788796a5b4c3d2e1f0") ∧
    lookAlike.length = 64 ∧ parse lookAlike = .error (.tensor (.hashCharacter lookAlike)) := by
  obtain ⟨_, reading⟩ := parse_iff_spelling
  obtain ⟨read, lowered, _⟩ := reading mixedSpelling
  obtain ⟨_, _, refused⟩ := reading lookAlike
  obtain ⟨d, made⟩ := read.2 (by decide)
  exact ⟨⟨d, made, (lowered d made).trans (by decide +kernel)⟩, by decide, refused (by decide)⟩

end Digest

end TensorGraph
