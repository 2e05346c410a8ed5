import TensorGraph.Number.Binary

/-!
Decimal text of a binary number. It is written with the fewest digits that read back as the same
number, the nearest of these where there are several; it is read by rounding the exact value of
the text.
-/

namespace TensorGraph.Number

/-- How many decimal digits a natural has; zero has none. -/
def digitCount (n : Nat) : Nat := if n = 0 then 0 else (Nat.toDigits 10 n).length

/-- A decimal: a natural times a power of ten. -/
structure Decimal where
  digits : Nat
  exponent : Int
deriving DecidableEq, Repr

/-- The interval of values that are rounded to a number, in quarters of the last bit: its ends
belong to it where the significand is even. -/
structure Interval where
  below : Nat
  value : Nat
  above : Nat
  closed : Bool
  exponent : Int

/-- The interval around a positive number. Below a power of two the neighbour is half as far. -/
def Format.interval (f : Format) (significand : Nat) (exponent : Int) : Interval where
  below := if significand = Nat.pow 2 f.fractionBits ∧ exponent ≠ f.lowest
    then 4 * significand - 1 else 4 * significand - 2
  value := 4 * significand
  above := 4 * significand + 2
  closed := significand % 2 == 0
  exponent := exponent - 2

/-- The ratio by which a natural in units of `2 ^ e` is compared with one in units of `10 ^ p`:
`n` of the former are `n * a / b` of the latter. -/
def unitRatio (e p : Int) : Nat × Nat :=
  (Nat.pow 2 e.toNat * Nat.pow 10 (-p).toNat, Nat.pow 2 (-e).toNat * Nat.pow 10 p.toNat)

/-- The place of the first digit: the least `k` such that the value lies below `10 ^ k`. -/
def leadingPlace (value : Nat) (e : Int) : Int :=
  let num := value * Nat.pow 2 e.toNat
  let den := Nat.pow 2 (-e).toNat
  if den ≤ num then digitCount (num / den)
  else 1 - (digitCount ((den + num - 1) / num - 1) : Int)

/-- The decimal next to the value on the grid of `10 ^ p`, if it lies in the interval. -/
def Interval.onGrid? (i : Interval) (p : Int) : Option Nat :=
  let (a, b) := unitRatio i.exponent p
  let d := i.value * a / b
  let low := if i.closed then i.below * a ≤ d * b else i.below * a < d * b
  let high := if i.closed then (d + 1) * b ≤ i.above * a else (d + 1) * b < i.above * a
  let down := i.value * a - d * b
  let up := (d + 1) * b - i.value * a
  if low && high then
    some (if down < up then d else if up < down then d + 1 else d + d % 2)
  else if low then some d
  else if high then some (d + 1)
  else none

/-- The first of the grids of `n`, `n + 1`, … digits with a decimal in the interval. -/
def Interval.shortestFrom (i : Interval) (place : Int) : Nat → Nat → Decimal
  | 0, n => ⟨i.value, place - n⟩
  | fuel + 1, n =>
    match i.onGrid? (place - n) with
    | some d => ⟨d, place - n⟩
    | none => i.shortestFrom place fuel (n + 1)

/-- A decimal without zeros at its end. -/
def Decimal.stripped (d : Decimal) : Nat → Decimal
  | 0 => d
  | fuel + 1 =>
    if d.digits ≠ 0 ∧ d.digits % 10 = 0 then
      Decimal.stripped ⟨d.digits / 10, d.exponent + 1⟩ fuel
    else d

/-- The shortest decimal of a positive number. Seventeen digits always tell the numbers of eight
bytes apart. -/
def Format.shortest (f : Format) (significand : Nat) (exponent : Int) : Decimal :=
  let i := f.interval significand exponent
  (i.shortestFrom (leadingPlace i.value i.exponent) 17 1).stripped 18

/-- Where positional digits give way to an exponent, and how many digits an exponent has at
least. -/
structure FloatLayout where
  leastPlace : Int
  mostPlace : Int
  exponentDigits : Nat

/-- A natural with zeros before it up to a width. -/
def paddedNat (width n : Nat) : String :=
  let ds := Nat.toDigits 10 n
  String.ofList (List.replicate (width - ds.length) '0' ++ ds)

/-- A decimal as text: positional where its first digit stands near the point, and with a
fraction in any case; else one digit, a fraction if there are more digits, and an exponent. -/
def FloatLayout.render (layout : FloatLayout) (d : Decimal) : String :=
  let ds := Nat.toDigits 10 d.digits
  let point : Int := ds.length + d.exponent
  let place := point - 1
  if layout.leastPlace ≤ place ∧ place < layout.mostPlace then
    if point ≤ 0 then
      String.ofList ('0' :: '.' :: List.replicate (-point).toNat '0' ++ ds)
    else if ds.length ≤ point.toNat then
      String.ofList (ds ++ List.replicate (point.toNat - ds.length) '0' ++ ['.', '0'])
    else String.ofList (ds.take point.toNat ++ '.' :: ds.drop point.toNat)
  else
    let head := match ds with
      | [] => []
      | [c] => [c]
      | c :: rest => c :: '.' :: rest
    let sign := if place < 0 then "e-" else "e+"
    String.ofList head ++ sign ++ paddedNat layout.exponentDigits place.natAbs

/-- Numbers stand positionally from a ten thousandth up to sixteen digits; an exponent has two
digits at least. -/
def plainLayout : FloatLayout := ⟨-4, 16, 2⟩

namespace Binary64

/-- The shortest text that reads back as a number. -/
def text (x : Binary64) : String :=
  match x.parts with
  | .undefined .. => "nan"
  | .infinite negative => if negative then "-inf" else "inf"
  | .finite negative m e =>
    let body := if m = 0 then "0.0" else plainLayout.render (Format.double.shortest m e)
    if negative then "-" ++ body else body

/-- The number next to a signed decimal. Far outside the range of the format the answer is known
before any power is computed. -/
def ofDecimal (negative : Bool) (d : Decimal) : Binary64 :=
  let place := digitCount d.digits + d.exponent
  if d.digits = 0 ∨ place < -400 then ofRatio negative 0 1
  else if 400 < place then infinity negative
  else
    ofRatio negative (d.digits * Nat.pow 10 d.exponent.toNat) (Nat.pow 10 (-d.exponent).toNat)

/-- The value of a run of decimal digits. -/
def natOfDigits (cs : List Char) : Nat :=
  cs.foldl (fun n c => 10 * n + (c.toNat - 48)) 0

def splitSign : List Char → Bool × List Char
  | '-' :: rest => (true, rest)
  | '+' :: rest => (false, rest)
  | cs => (false, cs)

/-- The exponent after a number: none at all counts as zero. -/
def readExponent? : List Char → Option Int
  | [] => some 0
  | c :: rest =>
    if c = 'e' ∨ c = 'E' then
      let (negative, ds) := splitSign rest
      if ds.isEmpty || !ds.all Char.isDigit then none
      else
        let n : Int := natOfDigits ds
        some (if negative then -n else n)
    else none

/-- The number that text spells: digits with a point and an exponent, where either may be
missing, or the name of an infinity or of the value that is no number. -/
def read? (s : String) : Option Binary64 :=
  let (negative, cs) := splitSign s.toList
  let name := String.ofList (cs.map Char.toLower)
  if name = "inf" ∨ name = "infinity" then some (infinity negative)
  else if name = "nan" then
    some (if negative then ofNatBits (Format.double.signed true nan.bits.toNat) else nan)
  else
    let whole := cs.takeWhile Char.isDigit
    let rest := cs.dropWhile Char.isDigit
    let (fraction, rest) := match rest with
      | '.' :: more => (more.takeWhile Char.isDigit, more.dropWhile Char.isDigit)
      | _ => ([], rest)
    if whole.isEmpty && fraction.isEmpty then none
    else (readExponent? rest).map fun e =>
      ofDecimal negative ⟨natOfDigits (whole ++ fraction), e - fraction.length⟩

end Binary64

end TensorGraph.Number
