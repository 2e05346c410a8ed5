/-!
Binary floating point formats: how the bits of a number stand for a sign, a significand and a
power of two, and which bits a ratio of naturals is rounded to. All arithmetic is exact, on
naturals; a number is rounded once, to the nearest neighbour and from halfway to the even one.
-/

namespace TensorGraph.Number

/-- A binary interchange format, given by the widths of its two fields. -/
structure Format where
  fractionBits : Nat
  exponentBits : Nat
deriving DecidableEq, Repr

namespace Format

def half : Format := ⟨10, 5⟩

def single : Format := ⟨23, 8⟩

def double : Format := ⟨52, 11⟩

/-- The exponent field that marks infinities and the values that are no numbers. -/
def topField (f : Format) : Nat := Nat.pow 2 f.exponentBits - 1

/-- The power of two that the last bit of the least numbers stands for. -/
def lowest (f : Format) : Int := 2 - Nat.pow 2 (f.exponentBits - 1) - f.fractionBits

def signWeight (f : Format) : Nat := Nat.pow 2 (f.exponentBits + f.fractionBits)

end Format

/-- What the bits of a format stand for. -/
inductive Parts where
  /-- The significand times a power of two. -/
  | finite (negative : Bool) (significand : Nat) (exponent : Int)
  | infinite (negative : Bool)
  /-- No number; the payload is the fraction field. -/
  | undefined (negative : Bool) (payload : Nat)
deriving DecidableEq, Repr

def Format.decode (f : Format) (bits : Nat) : Parts :=
  let negative := bits / f.signWeight % 2 == 1
  let field := bits / Nat.pow 2 f.fractionBits % Nat.pow 2 f.exponentBits
  let fraction := bits % Nat.pow 2 f.fractionBits
  if field = f.topField then
    if fraction = 0 then .infinite negative else .undefined negative fraction
  else if field = 0 then .finite negative fraction f.lowest
  else .finite negative (fraction + Nat.pow 2 f.fractionBits) (field - 1 + f.lowest)

/-- The quotient rounded to the nearest natural, from halfway to the even one. -/
def roundDiv (num den : Nat) : Nat :=
  let q := num / den
  let r := num % den
  if 2 * r < den then q else if den < 2 * r then q + 1 else q + q % 2

/-- The quotient of two naturals after scaling by a power of two. -/
def scaledDiv (num den : Nat) (exponent : Int) : Nat :=
  if 0 ≤ exponent then roundDiv num (den * Nat.pow 2 exponent.toNat)
  else roundDiv (num * Nat.pow 2 (-exponent).toNat) den

/-- Whether a ratio is at least a power of two. -/
def reachesPower (num den : Nat) (exponent : Int) : Bool :=
  if 0 ≤ exponent then den * Nat.pow 2 exponent.toNat ≤ num
  else den ≤ num * Nat.pow 2 (-exponent).toNat

/-- The bits, without the sign, of the number next to a ratio. A significand that is rounded up
to the next power of two carries into the exponent field, and out of the largest field into the
infinity. -/
def Format.magnitude (f : Format) (num den : Nat) : Nat :=
  if num = 0 then 0
  else
    let top : Int := (num.log2 : Int) - den.log2
    let top := if reachesPower num den top then top else top - 1
    let exponent := max f.lowest (top - f.fractionBits)
    let significand := scaledDiv num den exponent
    min (significand + (exponent - f.lowest).toNat * Nat.pow 2 f.fractionBits)
      (f.topField * Nat.pow 2 f.fractionBits)

def Format.signed (f : Format) (negative : Bool) (bits : Nat) : Nat :=
  if negative then bits + f.signWeight else bits

def Format.round (f : Format) (negative : Bool) (num den : Nat) : Nat :=
  f.signed negative (f.magnitude num den)

/-- The bits that stand for parts, rounded where the format is too narrow. A value that is no
number keeps the leading bits of its payload, and stays one. -/
def Format.encode (f : Format) (payloadBits : Nat) : Parts → Nat
  | .finite negative m e =>
    if 0 ≤ e then f.round negative (m * Nat.pow 2 e.toNat) 1
    else f.round negative m (Nat.pow 2 (-e).toNat)
  | .infinite negative => f.signed negative (f.topField * Nat.pow 2 f.fractionBits)
  | .undefined negative payload =>
    let kept :=
      if payloadBits ≤ f.fractionBits then payload * Nat.pow 2 (f.fractionBits - payloadBits)
      else payload / Nat.pow 2 (payloadBits - f.fractionBits)
    let quiet := Nat.pow 2 (f.fractionBits - 1)
    f.signed negative (f.topField * Nat.pow 2 f.fractionBits + (quiet + kept % quiet))

/-- A number of eight bytes, kept as its bits. -/
structure Binary64 where
  bits : UInt64
deriving DecidableEq, Repr, Inhabited

namespace Binary64

/-- The sign, significand and exponent that the bits stand for. -/
def parts (x : Binary64) : Parts := Format.double.decode x.bits.toNat

/-- The number with these bits, taken from the low end. -/
def ofNatBits (n : Nat) : Binary64 := ⟨UInt64.ofNat n⟩

def ofRatio (negative : Bool) (num den : Nat) : Binary64 :=
  ofNatBits (Format.double.round negative num den)

/-- Positive zero. -/
def zero : Binary64 := ⟨0⟩

def one : Binary64 := ofRatio false 1 1

/-- The value that is no number. -/
def nan : Binary64 := ofNatBits 0x7ff8000000000000

/-- The infinity of a sign. -/
def infinity (negative : Bool) : Binary64 :=
  ofNatBits (Format.double.encode 52 (.infinite negative))

/-- Whether the number is neither an infinity nor undefined. -/
def isFinite (x : Binary64) : Bool :=
  match x.parts with
  | .finite .. => true
  | _ => false

/-- Whether the bits stand for no number. -/
def isUndefined (x : Binary64) : Bool :=
  match x.parts with
  | .undefined .. => true
  | _ => false

/-- Both zeros are zero. -/
def isZero (x : Binary64) : Bool :=
  match x.parts with
  | .finite _ 0 _ => true
  | _ => false

/-- The number next to an integer, none where it lies beyond the finite numbers. -/
def ofInt? (n : Int) : Option Binary64 :=
  let x := ofRatio (n < 0) n.natAbs 1
  if x.isFinite then some x else none

/-- The bits of the same number in another format. -/
def toFormat (f : Format) (x : Binary64) : Nat :=
  f.encode Format.double.fractionBits x.parts

/-- The number that bits of another format stand for. -/
def ofFormat (f : Format) (bits : Nat) : Binary64 :=
  ofNatBits (Format.double.encode f.fractionBits (f.decode bits))

/-- The integer toward zero, none for the values that are no finite number. -/
def truncate? (x : Binary64) : Option Int :=
  match x.parts with
  | .finite negative m e =>
    let n := if 0 ≤ e then m * Nat.pow 2 e.toNat else m / Nat.pow 2 (-e).toNat
    some (if negative then -(n : Int) else n)
  | _ => none

/-- A finite number as an integer times a power of two. -/
def dyadic? (x : Binary64) : Option (Int × Int) :=
  match x.parts with
  | .finite negative m e => some (if negative then -(m : Int) else m, e)
  | _ => none

def isBelowZero (x : Binary64) : Bool :=
  match x.parts with
  | .finite negative m _ => negative && m != 0
  | .infinite negative => negative
  | .undefined .. => false

/-- The number next to an integer times a power of two; a zero takes the sign given. -/
def ofDyadic (negativeZero : Bool) (n e : Int) : Binary64 :=
  let negative := if n = 0 then negativeZero else decide (n < 0)
  ofNatBits (Format.double.encode 52 (.finite negative n.natAbs e))

def isNegative (x : Binary64) : Bool :=
  match x.parts with
  | .finite negative _ _ => negative
  | .infinite negative => negative
  | .undefined negative _ => negative

/-- The product, rounded once. -/
def mul (x y : Binary64) : Binary64 :=
  let negative := x.isNegative != y.isNegative
  match x.parts, y.parts with
  | .finite _ m e, .finite _ n d =>
    ofNatBits (Format.double.encode 52 (.finite negative (m * n) (e + d)))
  | .undefined .., _ => x
  | _, .undefined .. => y
  | _, _ => if x.isZero || y.isZero then nan else infinity negative

/-- The quotient of two finite numbers where it is an integer. -/
def exactQuotient? (x y : Binary64) : Option Int :=
  match x.dyadic?, y.dyadic? with
  | some (m, e), some (n, d) =>
    let shift := min e d
    let m := m * Nat.pow 2 (e - shift).toNat
    let n := n * Nat.pow 2 (d - shift).toNat
    if n = 0 then none else if m % n = 0 then some (m / n) else none
  | _, _ => none

end Binary64

/-- A zero significand is zero in every format. -/
theorem Format.magnitude_zero (f : Format) (den : Nat) : f.magnitude 0 den = 0 := rfl

/-- A whole quotient is not changed by rounding. -/
theorem roundDiv_mul_left (n : Nat) {d : Nat} (h : 0 < d) : roundDiv (n * d) d = n := by
  simp [roundDiv, Nat.mul_div_cancel n h, h]

end TensorGraph.Number
