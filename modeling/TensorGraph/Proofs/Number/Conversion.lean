import Mathlib.Algebra.Order.Ring.Int
import TensorGraph.Number.Binary

/-!
Integers as numbers of eight bytes. Every finite number is a whole multiple of the least positive
one, so distances between them and integers are compared as naturals, in this unit. An integer is
rounded to the last place of its own significand, and no number is nearer: those with a smaller
exponent lie below it, all others are multiples of the same place. From halfway beyond the largest
finite number on, the rounded significand is carried into the infinity, and the integer is not
converted.
-/

namespace TensorGraph.Number

variable {num den c : Nat}

/-! ### Rounded quotients -/

theorem roundDiv_mul_mul (num den : Nat) (pos : 0 < c) :
    roundDiv (num * c) (den * c) = roundDiv num den := by
  have below : 2 * (num % den * c) < den * c ↔ 2 * (num % den) < den := by
    rw [← Nat.mul_assoc, Nat.mul_lt_mul_right pos]
  have above : den * c < 2 * (num % den * c) ↔ den < 2 * (num % den) := by
    rw [← Nat.mul_assoc, Nat.mul_lt_mul_right pos]
  simp only [roundDiv, Nat.mul_div_mul_right _ _ pos, Nat.mul_mod_mul_right, below, above]

/-- How far one integer is from another. -/
def distance (a b : Int) : Nat := (a - b).natAbs

/-- Whether one integer stands for a number rather than another: it is nearer, or it is as near and
ties are settled for it. -/
def Preferred (number one other : Int) (settled : Prop) : Prop :=
  distance number one < distance number other ∨
    distance number one = distance number other ∧ settled

/-- The multiple that the rounded quotient names is half a step away at most, and from halfway it is
an even one. -/
theorem two_mul_distance_roundDiv (num : Nat) (pos : 0 < den) :
    2 * distance num (roundDiv num den * den : Nat) ≤ den ∧
      (2 * distance num (roundDiv num den * den : Nat) = den → roundDiv num den % 2 = 0) := by
  have parts := Nat.div_add_mod' num den
  have small := Nat.mod_lt num pos
  simp only [roundDiv, distance]
  split
  · omega
  · split
    · rw [Nat.add_one_mul (num / den)]
      omega
    · rcases Nat.mod_two_eq_zero_or_one (num / den) with even | odd
      · rw [even]
        simp only [Nat.add_zero]
        omega
      · rw [odd, Nat.add_one_mul (num / den)]
        omega

/-- No other multiple is as near, or one is and the rounded quotient is even. -/
theorem preferred_roundDiv {q : Nat} (pos : 0 < den) (other : q ≠ roundDiv num den) :
    Preferred num (roundDiv num den * den : Nat) (q * den : Nat) (roundDiv num den % 2 = 0) := by
  obtain ⟨near, halfway⟩ := two_mul_distance_roundDiv num pos
  have apart : q * den + den ≤ roundDiv num den * den ∨
      roundDiv num den * den + den ≤ q * den := by
    rw [← Nat.succ_mul, ← Nat.succ_mul]
    exact (Nat.lt_or_gt_of_ne other).imp (Nat.mul_le_mul_right den) (Nat.mul_le_mul_right den)
  simp only [Preferred, distance] at near halfway ⊢
  rcases Nat.lt_or_ge (2 * (num - (roundDiv num den * den : Nat) : Int).natAbs) den with less | half
  · left
    omega
  · have even := halfway (Nat.le_antisymm near half)
    omega

theorem le_roundDiv (pos : 0 < den) {q : Nat} (below : q * den ≤ num) : q ≤ roundDiv num den := by
  obtain ⟨near, _⟩ := two_mul_distance_roundDiv num pos
  by_contra short
  have less := Nat.mul_le_mul_right den (Nat.lt_of_not_le short)
  rw [Nat.add_one_mul] at less
  rw [distance] at near
  omega

theorem roundDiv_le (pos : 0 < den) {q : Nat} (above : num ≤ q * den) : roundDiv num den ≤ q := by
  obtain ⟨near, _⟩ := two_mul_distance_roundDiv num pos
  by_contra long
  have more := Nat.mul_le_mul_right den (Nat.lt_of_not_le long)
  rw [Nat.add_one_mul] at more
  rw [distance] at near
  omega

theorem le_roundDiv_iff (pos : 0 < den) {q : Nat} (even : q % 2 = 0) (above : 0 < q) :
    q ≤ roundDiv num den ↔ (2 * q - 1) * den ≤ 2 * num := by
  obtain ⟨near, halfway⟩ := two_mul_distance_roundDiv num pos
  have step : (2 * q - 1) * den + den = 2 * (q * den) := by
    rw [← Nat.succ_mul, ← Nat.mul_assoc]
    congr 1
    omega
  simp only [distance] at near halfway
  constructor
  · intro reached
    have more := Nat.mul_le_mul_right den reached
    omega
  · intro enough
    by_contra short
    by_cases next : q = roundDiv num den + 1
    · -- Only from halfway can it be the number before, and then that would be even.
      have last : q * den = roundDiv num den * den + den := by rw [next, Nat.add_one_mul]
      omega
    · have further : (roundDiv num den + 2) * den ≤ q * den :=
        Nat.mul_le_mul_right den (by omega)
      rw [Nat.add_mul] at further
      omega

/-! ### Bits of eight bytes -/

theorem decode_double (bits : Nat) : Format.double.decode bits =
    if bits / 2 ^ 52 % 2 ^ 11 = 2047 then
      if bits % 2 ^ 52 = 0 then .infinite (bits / 2 ^ 63 % 2 == 1)
      else .undefined (bits / 2 ^ 63 % 2 == 1) (bits % 2 ^ 52)
    else if bits / 2 ^ 52 % 2 ^ 11 = 0 then
      .finite (bits / 2 ^ 63 % 2 == 1) (bits % 2 ^ 52) (-1074)
    else .finite (bits / 2 ^ 63 % 2 == 1) (bits % 2 ^ 52 + 2 ^ 52)
      ((bits / 2 ^ 52 % 2 ^ 11 : Nat) - 1 + -1074) := rfl

theorem signed_double (negative : Bool) (bits : Nat) :
    Format.double.signed negative bits = bits + if negative then 2 ^ 63 else 0 := by
  cases negative <;> rfl

theorem decode_signed {field fraction : Nat} (negative : Bool) (normal : 0 < field)
    (finite : field < 2047) (small : fraction < 2 ^ 52) :
    Format.double.decode (Format.double.signed negative (field * 2 ^ 52 + fraction)) =
      .finite negative (fraction + 2 ^ 52) ((field - 1 : Nat) - 1074) := by
  rw [signed_double]
  generalize bits_eq : field * 2 ^ 52 + fraction + (if negative then 2 ^ 63 else 0) = bits
  have sign : (bits / 2 ^ 63 % 2 == 1) = negative := by
    cases negative <;> simp at bits_eq ⊢ <;> omega
  have exponent : bits / 2 ^ 52 % 2 ^ 11 = field := by
    cases negative <;> simp at bits_eq <;> omega
  have significand : bits % 2 ^ 52 = fraction := by
    cases negative <;> simp at bits_eq <;> omega
  have above : ((field : Int) - 1 + -1074) = (field - 1 : Nat) - 1074 := by omega
  rw [decode_double, sign, exponent, significand, if_neg (Nat.ne_of_lt finite),
    if_neg (Nat.ne_of_gt normal), above]

/-- The significands of finite numbers have no more than their width. -/
theorem narrow_of_decode {bits m : Nat} {negative : Bool} {e : Int}
    (h : Format.double.decode bits = .finite negative m e) :
    ∃ k : Nat, m < 2 ^ 53 ∧ e = k - 1074 := by
  have fraction : bits % 2 ^ 52 < 2 ^ 52 := Nat.mod_lt _ (by decide)
  rw [decode_double] at h
  split at h
  · split at h <;> cases h
  · split at h
    · cases h
      exact ⟨0, by omega, rfl⟩
    · cases h
      exact ⟨bits / 2 ^ 52 % 2 ^ 11 - 1, by omega, by omega⟩

theorem parts_ofNatBits {bits : Nat} (fits : bits < 2 ^ 64) :
    (Binary64.ofNatBits bits).parts = Format.double.decode bits := by
  rw [Binary64.parts, Binary64.ofNatBits, UInt64.toNat_ofNat_of_lt' fits]

/-- How many places behind the point the least positive number stands. -/
def leastPlace : Nat := 1074

theorem leastPlace_eq : leastPlace = 1074 := rfl

/-- How many of the least positive numbers make one. -/
def unitsOfOne : Nat := 2 ^ leastPlace

/-- The number of units by which the last bit of the significand of an integer counts. -/
def lastPlace (n : Nat) : Nat := n.log2 + 1022

theorem scaledDiv_one (n k : Nat) :
    scaledDiv n 1 ((k : Int) - 1074) = roundDiv (n * unitsOfOne) (2 ^ k) := by
  have least := leastPlace_eq
  simp only [scaledDiv, Nat.pow_eq]
  split
  · next whole =>
    have place : 1 * 2 ^ ((k : Int) - 1074).toNat * unitsOfOne = 2 ^ k := by
      have places : ((k : Int) - 1074).toNat + leastPlace = k := by omega
      rw [Nat.one_mul, unitsOfOne, ← Nat.pow_add, places]
    rw [← place]
    exact (roundDiv_mul_mul _ _ (Nat.two_pow_pos leastPlace)).symm
  · next part =>
    have place : 2 ^ (-((k : Int) - 1074)).toNat * 2 ^ k = unitsOfOne := by
      have places : (-((k : Int) - 1074)).toNat + k = leastPlace := by omega
      rw [← Nat.pow_add, places, unitsOfOne]
    have divided := roundDiv_mul_mul (n * 2 ^ (-((k : Int) - 1074)).toNat) 1 (Nat.two_pow_pos k)
    rw [← divided, Nat.mul_assoc, place, Nat.one_mul]

/-- What an integer is rounded to: so many units in the last place. -/
def rounded (n : Nat) : Nat := roundDiv (n * unitsOfOne) (2 ^ lastPlace n)

theorem magnitude_double {n : Nat} (pos : n ≠ 0) : Format.double.magnitude n 1 =
    min (rounded n + lastPlace n * 2 ^ 52) (2047 * 2 ^ 52) := by
  have lowest : Format.double.lowest = -1074 := rfl
  have bits : (Format.double.fractionBits : Int) = 52 := rfl
  have top : (n.log2 : Int) - (Nat.log2 1 : Nat) = n.log2 := by
    rw [show Nat.log2 1 = 0 from rfl]
    omega
  have reached : reachesPower n 1 n.log2 = true := by
    simpa [reachesPower] using Nat.log2_self_le pos
  have exponent : max (-1074) ((n.log2 : Int) - 52) = (lastPlace n : Int) - 1074 := by
    rw [lastPlace]
    omega
  have place : ((lastPlace n : Int) - 1074 - -1074).toNat = lastPlace n := by omega
  rw [Format.magnitude, if_neg pos]
  simp only [top, reached, if_true, lowest, bits, exponent, scaledDiv_one, place]
  rfl

/-- The significand of an integer has its full width, and may be rounded up out of it. -/
theorem significand_bounds {n : Nat} (pos : n ≠ 0) :
    2 ^ 52 * 2 ^ lastPlace n ≤ n * unitsOfOne ∧ n * unitsOfOne ≤ 2 ^ 53 * 2 ^ lastPlace n := by
  have least := leastPlace_eq
  have first : 2 ^ 52 * 2 ^ lastPlace n = 2 ^ n.log2 * unitsOfOne := by
    have places : 52 + lastPlace n = n.log2 + leastPlace := by
      rw [lastPlace]
      omega
    rw [unitsOfOne, ← Nat.pow_add, ← Nat.pow_add, places]
  have last : 2 ^ 53 * 2 ^ lastPlace n = 2 ^ (n.log2 + 1) * unitsOfOne := by
    have places : 53 + lastPlace n = n.log2 + 1 + leastPlace := by
      rw [lastPlace]
      omega
    rw [unitsOfOne, ← Nat.pow_add, ← Nat.pow_add, places]
  have low : 2 ^ n.log2 ≤ n := Nat.log2_self_le pos
  have high : n ≤ 2 ^ (n.log2 + 1) := Nat.le_of_lt Nat.lt_log2_self
  rw [first, last]
  exact ⟨Nat.mul_le_mul_right unitsOfOne low, Nat.mul_le_mul_right unitsOfOne high⟩

/-- A significand that was rounded up out of its width is carried into the exponent. -/
theorem decode_carried (negative : Bool) {m k : Nat} (low : 2 ^ 52 ≤ m) (high : m ≤ 2 ^ 53)
    (fits : m + k * 2 ^ 52 < 2047 * 2 ^ 52) :
    ∃ m' k', Format.double.decode (Format.double.signed negative (m + k * 2 ^ 52)) =
      .finite negative m' ((k' : Nat) - 1074) ∧ m' * 2 ^ k' = m * 2 ^ k ∧
      (m % 2 = 0 → m' % 2 = 0) := by
  by_cases full : m = 2 ^ 53
  · have bits : m + k * 2 ^ 52 = (k + 2) * 2 ^ 52 + 0 := by omega
    refine ⟨0 + 2 ^ 52, k + 2 - 1, ?_, ?_, fun _ => by decide⟩
    · rw [bits, decode_signed negative (by omega) (by omega) (by decide)]
    · have place : 2 ^ (k + 2 - 1) = 2 * 2 ^ k := Nat.pow_succ'
      rw [full, place]
      omega
  · have bits : m + k * 2 ^ 52 = (k + 1) * 2 ^ 52 + (m - 2 ^ 52) := by omega
    refine ⟨m - 2 ^ 52 + 2 ^ 52, k + 1 - 1, ?_, ?_, fun even => by omega⟩
    · rw [bits, decode_signed negative (by omega) (by omega) (by omega)]
    · rw [Nat.sub_add_cancel low, Nat.add_sub_cancel]

theorem decode_infinity (negative : Bool) :
    Format.double.decode (Format.double.signed negative (2047 * 2 ^ 52)) = .infinite negative := by
  cases negative <;> rfl

theorem rounded_bounds {n : Nat} (pos : n ≠ 0) : 2 ^ 52 ≤ rounded n ∧ rounded n ≤ 2 ^ 53 := by
  obtain ⟨low, high⟩ := significand_bounds pos
  have step := Nat.two_pow_pos (lastPlace n)
  exact ⟨le_roundDiv step low, roundDiv_le step high⟩

/-- The bits of the number next to an integer. -/
theorem parts_ofRatio_one (negative : Bool) {n : Nat} (pos : n ≠ 0) :
    (Binary64.ofRatio negative n 1).parts =
      Format.double.decode (Format.double.signed negative
        (min (rounded n + lastPlace n * 2 ^ 52) (2047 * 2 ^ 52))) := by
  rw [Binary64.ofRatio, Format.round, magnitude_double pos]
  apply parts_ofNatBits
  rw [signed_double]
  split <;> omega

theorem parts_ofRatio (negative : Bool) {n : Nat} (pos : n ≠ 0)
    (fits : rounded n + lastPlace n * 2 ^ 52 < 2047 * 2 ^ 52) :
    ∃ m k, (Binary64.ofRatio negative n 1).parts = .finite negative m ((k : Nat) - 1074) ∧
      m * 2 ^ k = rounded n * 2 ^ lastPlace n ∧ (rounded n % 2 = 0 → m % 2 = 0) := by
  obtain ⟨low, high⟩ := rounded_bounds pos
  rw [parts_ofRatio_one negative pos, Nat.min_eq_left (Nat.le_of_lt fits)]
  exact decode_carried negative low high fits

theorem parts_ofRatio_of_overflow (negative : Bool) {n : Nat} (pos : n ≠ 0)
    (excess : 2047 * 2 ^ 52 ≤ rounded n + lastPlace n * 2 ^ 52) :
    (Binary64.ofRatio negative n 1).parts = .infinite negative := by
  rw [parts_ofRatio_one negative pos, Nat.min_eq_right excess, decode_infinity]

/-! ### Beyond the finite numbers -/

/-- The power of two that the last bit of the largest finite numbers stands for. -/
def largestPlace : Nat := 970

theorem largestPlace_eq : largestPlace = 970 := rfl

/-- The least natural that is rounded beyond the finite numbers: 2 ^ 1024 - 2 ^ 970, which is
halfway from the largest of them to the next power of two. -/
def finiteLimit : Nat := (2 ^ 54 - 1) * 2 ^ largestPlace

theorem finiteLimit_bounds :
    2 ^ (53 + largestPlace) ≤ finiteLimit ∧ finiteLimit ≤ 2 ^ (54 + largestPlace) := by
  have low : 2 ^ 53 ≤ 2 ^ 54 - 1 := by decide
  have high : 2 ^ 54 - 1 ≤ 2 ^ 54 := by decide
  rw [finiteLimit, Nat.pow_add, Nat.pow_add]
  generalize 2 ^ largestPlace = scale
  exact ⟨Nat.mul_le_mul_right scale low, Nat.mul_le_mul_right scale high⟩

/-- With the exponent of the largest finite numbers, a significand is rounded up out of its width
from halfway on. -/
theorem rounded_full_iff {n : Nat} (last : n.log2 = 53 + largestPlace) :
    2 ^ 53 ≤ rounded n ↔ finiteLimit ≤ n := by
  have least := leastPlace_eq
  have places : lastPlace n = largestPlace + (1 + leastPlace) := by
    rw [lastPlace]
    omega
  have step : 2 ^ lastPlace n = 2 ^ largestPlace * (2 * unitsOfOne) := by
    rw [places, Nat.pow_add, Nat.pow_add, Nat.pow_one, unitsOfOne]
  have halves : 2 * (n * unitsOfOne) = n * (2 * unitsOfOne) := Nat.mul_left_comm 2 n unitsOfOne
  have full : 2 * 2 ^ 53 - 1 = 2 ^ 54 - 1 := by decide
  have units : 0 < 2 * unitsOfOne := Nat.mul_pos (by decide) (Nat.two_pow_pos leastPlace)
  rw [rounded, le_roundDiv_iff (Nat.two_pow_pos _) (by decide) (by decide), step, halves, full,
    ← Nat.mul_assoc, Nat.mul_le_mul_right_iff units, finiteLimit]

/-- The rounded significand is carried out of the largest exponent only from the limit on. -/
theorem overflows_iff {n : Nat} (pos : n ≠ 0) :
    2047 * 2 ^ 52 ≤ rounded n + lastPlace n * 2 ^ 52 ↔ finiteLimit ≤ n := by
  obtain ⟨low, high⟩ := rounded_bounds pos
  obtain ⟨fits, beyond⟩ := finiteLimit_bounds
  have largest := largestPlace_eq
  have place : lastPlace n = n.log2 + 1022 := rfl
  rcases Nat.lt_trichotomy n.log2 (53 + largestPlace) with small | last | large
  · have below : n < finiteLimit := by
      calc n < 2 ^ (n.log2 + 1) := Nat.lt_log2_self
        _ ≤ 2 ^ (53 + largestPlace) := Nat.pow_le_pow_right (by decide) small
        _ ≤ finiteLimit := fits
    constructor
    · omega
    · intro reached
      exact absurd below (Nat.not_lt_of_le reached)
  · rw [← rounded_full_iff last]
    omega
  · have above : finiteLimit ≤ n := by
      calc finiteLimit ≤ 2 ^ (54 + largestPlace) := beyond
        _ ≤ 2 ^ n.log2 := Nat.pow_le_pow_right (by decide) (by omega)
        _ ≤ n := Nat.log2_self_le pos
    constructor
    · exact fun _ => above
    · omega

/-! ### The nearest number -/

/-- A number whose significand has no more than its width is a multiple of the last place of any
number with an exponent that is no larger than its own. -/
theorem dvd_of_narrow {m k l : Nat} (narrow : m < 2 ^ 53) (large : 2 ^ 52 * 2 ^ l ≤ m * 2 ^ k) :
    2 ^ l ∣ m * 2 ^ k := by
  have wide : l ≤ k := by
    by_contra short
    have place : 2 * 2 ^ k ≤ 2 ^ l := by
      rw [← Nat.pow_succ']
      exact Nat.pow_le_pow_right (by decide) (Nat.lt_of_not_le short)
    have significand : m * 2 ^ k < 2 ^ 53 * 2 ^ k :=
      Nat.mul_lt_mul_of_pos_right narrow (Nat.two_pow_pos k)
    omega
  exact Nat.dvd_mul_left_of_dvd (Nat.pow_dvd_pow 2 wide) m

/-- What an integer is rounded to is preferred to all numbers that have a significand of no more
than its width. -/
theorem preferred_rounded {n m k : Nat} (pos : n ≠ 0) (narrow : m < 2 ^ 53) {v : Int}
    (width : v.natAbs = m * 2 ^ k) (other : v ≠ (rounded n * 2 ^ lastPlace n : Nat)) :
    Preferred (n * unitsOfOne : Nat) (rounded n * 2 ^ lastPlace n : Nat) v (rounded n % 2 = 0) := by
  have step := Nat.two_pow_pos (lastPlace n)
  obtain ⟨low, -⟩ := significand_bounds pos
  rcases lt_or_ge v (2 ^ 52 * 2 ^ lastPlace n : Nat) with below | above
  · -- The least number with this exponent is nearer than all that are below it.
    have least : distance (n * unitsOfOne : Nat) (2 ^ 52 * 2 ^ lastPlace n : Nat) <
        distance (n * unitsOfOne : Nat) v := by
      simp only [distance]
      omega
    left
    by_cases same : 2 ^ 52 = rounded n
    · rwa [← same]
    · rcases preferred_roundDiv step same with nearer | ⟨as_near, -⟩
      · exact Nat.lt_trans nearer least
      · rwa [rounded, as_near]
  · have size : v = (m * 2 ^ k : Nat) := by omega
    obtain ⟨q, multiple⟩ := dvd_of_narrow (k := k) (l := lastPlace n) narrow (by omega)
    rw [Nat.mul_comm (2 ^ lastPlace n) q] at multiple
    rw [size, multiple] at other ⊢
    exact preferred_roundDiv step fun same => other (by rw [same, rounded])

/-- The integer of a size and a sign. -/
def signedInt (negative : Bool) (size : Nat) : Int := if negative then -size else size

theorem preferred_signedInt {n : Int} (nonzero : n ≠ 0) {m k : Nat} (narrow : m < 2 ^ 53) {v : Int}
    (width : v.natAbs = m * 2 ^ k)
    (other : v ≠ signedInt (n < 0) (rounded n.natAbs * 2 ^ lastPlace n.natAbs)) :
    Preferred (n * unitsOfOne) (signedInt (n < 0) (rounded n.natAbs * 2 ^ lastPlace n.natAbs)) v
      (rounded n.natAbs % 2 = 0) := by
  have pos : n.natAbs ≠ 0 := Int.natAbs_ne_zero.2 nonzero
  rcases lt_or_ge n 0 with negative | positive
  · -- Turned round, the integer and the number are as far apart as before.
    have size : n * unitsOfOne = -(n.natAbs * unitsOfOne : Nat) := by
      have turned : n = -(n.natAbs : Int) := by omega
      rw [Int.natCast_mul, ← Int.neg_mul, ← turned]
    have near := preferred_rounded pos narrow (k := k) (v := -v) (by omega)
    simp only [signedInt, negative, decide_true, if_true, size, Preferred, distance] at near other ⊢
    generalize n.natAbs * unitsOfOne = units at near ⊢
    generalize rounded n.natAbs * 2 ^ lastPlace n.natAbs = nearest at near other ⊢
    omega
  · have size : n * unitsOfOne = (n.natAbs * unitsOfOne : Nat) := by
      have same : n = (n.natAbs : Int) := by omega
      rw [Int.natCast_mul, ← same]
    simp only [signedInt, Int.not_lt.2 positive, decide_false, Bool.false_eq_true, if_false, size]
      at other ⊢
    exact preferred_rounded pos narrow width other

namespace Binary64

/-- A finite number, in units of the least positive one. -/
def units? (x : Binary64) : Option Int :=
  match x.parts with
  | .finite negative m e => some (signedInt negative (m * 2 ^ (e + leastPlace).toNat))
  | _ => none

/-- Whether the last bit of the significand of a finite number is zero. -/
def isEven (x : Binary64) : Bool :=
  match x.parts with
  | .finite _ m _ => m % 2 == 0
  | _ => false

/-- The number has the sign of an integer, and it stands for the integer rather than any other
finite number does, where ties are settled for the even significand. -/
def IsNearest (x : Binary64) (n : Int) : Prop :=
  x.isNegative = decide (n < 0) ∧ ∃ u, x.units? = some u ∧
    ∀ y v, units? y = some v → v ≠ u → Preferred (n * unitsOfOne) u v (x.isEven = true)

theorem units?_of_parts {x : Binary64} {negative : Bool} {m k : Nat}
    (h : x.parts = .finite negative m ((k : Nat) - 1074)) :
    x.units? = some (signedInt negative (m * 2 ^ k)) := by
  have place : ((k : Int) - 1074 + leastPlace).toNat = k := by
    have least := leastPlace_eq
    omega
  simp only [units?, h, place]

/-- The size of a finite number is a narrow significand at some place. -/
theorem exists_significand {x : Binary64} {u : Int} (h : x.units? = some u) :
    ∃ m k, m < 2 ^ 53 ∧ u.natAbs = m * 2 ^ k := by
  obtain ⟨negative, m, e, form⟩ : ∃ negative m e, x.parts = .finite negative m e := by
    rw [units?] at h
    split at h
    · exact ⟨_, _, _, ‹_›⟩
    · cases h
  obtain ⟨k, narrow, rfl⟩ := narrow_of_decode form
  rw [units?_of_parts form, Option.some.injEq] at h
  refine ⟨m, k, narrow, ?_⟩
  rw [← h, signedInt]
  split <;> omega

theorem ofInt?_zero : ofInt? 0 = some zero := rfl

theorem ofInt?_of_limit_le {n : Int} (beyond : finiteLimit ≤ n.natAbs) : ofInt? n = none := by
  have nonzero : n.natAbs ≠ 0 := by
    have least := finiteLimit_bounds.1
    have positive := Nat.two_pow_pos (53 + largestPlace)
    omega
  have parts := parts_ofRatio_of_overflow (decide (n < 0)) nonzero
    ((overflows_iff nonzero).2 beyond)
  simp only [ofInt?, isFinite, parts, Bool.false_eq_true, if_false]

/-- Below the limit, an integer is converted to the sign and the size that it is rounded to. -/
theorem exists_ofInt? {n : Int} (nonzero : n ≠ 0) (below : n.natAbs < finiteLimit) :
    ∃ x m k, ofInt? n = some x ∧ x.parts = .finite (n < 0) m ((k : Nat) - 1074) ∧
      m * 2 ^ k = rounded n.natAbs * 2 ^ lastPlace n.natAbs ∧
      (rounded n.natAbs % 2 = 0 → m % 2 = 0) := by
  have some_size : n.natAbs ≠ 0 := Int.natAbs_ne_zero.2 nonzero
  have fits := Nat.lt_of_not_le fun excess =>
    Nat.not_le_of_lt below ((overflows_iff some_size).1 excess)
  obtain ⟨m, k, parts, size, even⟩ := parts_ofRatio (decide (n < 0)) some_size fits
  refine ⟨_, m, k, ?_, parts, size, even⟩
  simp only [ofInt?, isFinite, parts, if_true]

/-- An integer is converted if and only if it is below the limit in size. -/
theorem ofInt?_eq_none_iff (n : Int) : ofInt? n = none ↔ finiteLimit ≤ n.natAbs := by
  refine ⟨fun none => ?_, ofInt?_of_limit_le⟩
  by_contra below
  rcases eq_or_ne n 0 with rfl | nonzero
  · cases ofInt?_zero.symm.trans none
  · obtain ⟨x, m, k, converted, -⟩ := exists_ofInt? nonzero (Nat.lt_of_not_le below)
    cases converted.symm.trans none

/-- An integer is converted to the nearest number. -/
theorem isNearest_of_ofInt? {n : Int} {x : Binary64} (h : ofInt? n = some x) : x.IsNearest n := by
  rcases eq_or_ne n 0 with rfl | nonzero
  · cases ofInt?_zero.symm.trans h
    refine ⟨rfl, 0, rfl, fun y v _ other => ?_⟩
    left
    simp only [distance]
    omega
  · have below := Nat.lt_of_not_le fun beyond => by cases h.symm.trans (ofInt?_of_limit_le beyond)
    obtain ⟨x, m, k, converted, parts, size, even⟩ := exists_ofInt? nonzero below
    cases converted.symm.trans h
    refine ⟨by simp only [isNegative, parts], _, units?_of_parts parts, fun y v found other => ?_⟩
    obtain ⟨m', k', narrow, width⟩ := exists_significand found
    rw [size] at other ⊢
    rcases preferred_signedInt nonzero narrow width other with nearer | ⟨as_near, rounds_even⟩
    · exact .inl nearer
    · refine .inr ⟨as_near, ?_⟩
      simp only [isEven, parts, even rounds_even, beq_self_eq_true]

/-- From halfway between two numbers, the even one is taken. -/
example : ofInt? (2 ^ 53 + 1) = ofInt? (2 ^ 53) ∧ ofInt? (2 ^ 53 + 3) = ofInt? (2 ^ 53 + 4) :=
  ⟨rfl, rfl⟩

end Binary64

end TensorGraph.Number
