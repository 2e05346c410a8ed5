import TensorGraph.Error
import TensorGraph.Text.Hex

/-!
Values of JSON text. Beyond the standard, infinities and the value that is no number may be
written by name. The last value of a key that is repeated counts.
-/

namespace TensorGraph.Json

open Number Text

/-- Text that is not well formed. -/
def malformed {α : Type} : Except Error α := failWith .jsonText

/-- Text without the blanks before it. -/
def skipBlanks (cs : List Char) : List Char :=
  cs.dropWhile fun c => c = ' ' || c = '\t' || c = '\n' || c = '\r'

/-- A UTF-16 unit of four digits. -/
def readUnit : List Char → Except Error (Nat × List Char)
  | a :: b :: c :: d :: rest =>
    match hexRead? [a, b, c, d] with
    | some n => .ok (n, rest)
    | none => malformed
  | _ => malformed

/-- The character of a unit that has no partner. Half of a pair alone stands for no character. -/
def loneUnit (unit : Nat) : Char :=
  if 0xd800 ≤ unit ∧ unit < 0xe000 then '\ufffd' else Char.ofNat unit

/-- The character of a unit, and of the unit after it where the two make a pair. -/
def readEscapedUnit (cs : List Char) : Except Error (Char × List Char) := do
  let (unit, rest) ← readUnit cs
  if 0xd800 ≤ unit ∧ unit < 0xdc00 then
    match rest with
    | '\\' :: 'u' :: more => do
      let (low, after) ← readUnit more
      if 0xdc00 ≤ low ∧ low < 0xe000 then
        return (Char.ofNat (0x10000 + (unit - 0xd800) * 0x400 + (low - 0xdc00)), after)
      else return (loneUnit unit, rest)
    | _ => return (loneUnit unit, rest)
  else return (loneUnit unit, rest)

/-- The character of a simple escape. -/
def simpleEscape? : Char → Option Char
  | '\x22' => some '\x22'
  | '\\' => some '\\'
  | '/' => some '/'
  | 'b' => some '\x08'
  | 'f' => some '\x0c'
  | 'n' => some '\n'
  | 'r' => some '\r'
  | 't' => some '\t'
  | _ => none

/-- The rest of a string whose opening mark has been read. -/
def readString : Nat → List Char → List Char → Except Error (String × List Char)
  | 0, _, _ => malformed
  | _ + 1, _, [] => malformed
  | fuel + 1, done, c :: rest =>
    if c = '\x22' then .ok (String.ofList done.reverse, rest)
    else if c = '\\' then
      match rest with
      | 'u' :: more => do
        let (d, after) ← readEscapedUnit more
        readString fuel (d :: done) after
      | e :: more =>
        match simpleEscape? e with
        | some d => readString fuel (d :: done) more
        | none => malformed
      | [] => malformed
    else if c.toNat < 0x20 then malformed
    else readString fuel (c :: done) rest

/-- The digits of a fraction after its point, if there are any. -/
def splitFraction : List Char → List Char × List Char
  | '.' :: rest =>
    match rest.takeWhile Char.isDigit with
    | [] => ([], '.' :: rest)
    | digits => ('.' :: digits, rest.dropWhile Char.isDigit)
  | cs => ([], cs)

/-- An exponent, if there is one. -/
def splitExponent (cs : List Char) : List Char × List Char :=
  match cs with
  | c :: rest =>
    if c = 'e' ∨ c = 'E' then
      let (sign, digits) := match rest with
        | '+' :: more => (['+'], more)
        | '-' :: more => (['-'], more)
        | _ => ([], rest)
      match digits.takeWhile Char.isDigit with
      | [] => ([], cs)
      | ds => (c :: sign ++ ds, digits.dropWhile Char.isDigit)
    else ([], cs)
  | [] => ([], cs)

/-- How many digits an integer may have. -/
def digitLimit : Nat := 4300

/-- A number, without its sign. -/
def readNumber (negative : Bool) (cs : List Char) : Except Error (Value × List Char) := do
  let digits := match cs with
    | '0' :: _ => ['0']
    | _ => cs.takeWhile Char.isDigit
  if digits.isEmpty then malformed
  let rest := cs.drop digits.length
  let (fraction, rest) := splitFraction rest
  let (exponent, rest) := splitExponent rest
  if fraction.isEmpty && exponent.isEmpty then
    if digitLimit < digits.length then failWith .badValue
    let n : Int := Binary64.natOfDigits digits
    return (.int (if negative then -n else n), rest)
  else
    let sign := if negative then ['-'] else []
    let x ← orError (Binary64.read? (String.ofList (sign ++ digits ++ fraction ++ exponent)))
      (.fault .jsonText)
    return (.float x, rest)

/-- What follows a word at the start of the text. -/
def afterWord? (word : String) (cs : List Char) : Option (List Char) :=
  if word.toList.isPrefixOf cs then some (cs.drop word.length) else none

def words : List (String × Value) :=
  [("null", .null), ("true", .bool true), ("false", .bool false), ("NaN", .float .nan),
    ("Infinity", .float (.infinity false)), ("-Infinity", .float (.infinity true))]

/-- A value that is no string, list or object. -/
def readScalar (cs : List Char) : Except Error (Value × List Char) :=
  match words.findSome? fun word => (afterWord? word.1 cs).map fun rest => (word.2, rest) with
  | some found => .ok found
  | none =>
    match cs with
    | '-' :: rest => readNumber true rest
    | _ => readNumber false cs

mutual

/-- A value. The fuel bounds how many parts of the text are looked at. -/
def readValue : Nat → List Char → Except Error (Value × List Char)
  | 0, _ => malformed
  | fuel + 1, cs =>
    match cs with
    | '\x22' :: rest => do
      let (s, rest) ← readString rest.length.succ [] rest
      return (.text s, rest)
    | '[' :: rest =>
      match skipBlanks rest with
      | ']' :: rest => .ok (.list [], rest)
      | rest => do
        let (items, rest) ← readItems fuel rest
        return (.list items, rest)
    | '\x7b' :: rest =>
      match skipBlanks rest with
      | '\x7d' :: rest => .ok (.map [], rest)
      | rest => do
        let (entries, rest) ← readEntries fuel rest
        return (.map (OrderedMap.ofEntries entries).entries, rest)
    | _ => readScalar cs

def readItems : Nat → List Char → Except Error (List Value × List Char)
  | 0, _ => malformed
  | fuel + 1, cs => do
    let (item, rest) ← readValue fuel cs
    match skipBlanks rest with
    | ',' :: rest =>
      let (items, rest) ← readItems fuel (skipBlanks rest)
      return (item :: items, rest)
    | ']' :: rest => return ([item], rest)
    | _ => malformed

/-- The entries of an object up to its end. -/
def readEntries : Nat → List Char → Except Error (List (String × Value) × List Char)
  | 0, _ => malformed
  | fuel + 1, cs =>
    match cs with
    | '\x22' :: rest => do
      let (key, rest) ← readString rest.length.succ [] rest
      match skipBlanks rest with
      | ':' :: rest =>
        let (value, rest) ← readValue fuel (skipBlanks rest)
        match skipBlanks rest with
        | ',' :: rest =>
          let (entries, rest) ← readEntries fuel (skipBlanks rest)
          return ((key, value) :: entries, rest)
        | '\x7d' :: rest => return ([(key, value)], rest)
        | _ => malformed
      | _ => malformed
    | _ => malformed

end

/-- The value of a text. Each part that is looked at takes a character, with one to spare. -/
def parse (s : String) : Except Error Value := do
  let (value, rest) ← readValue (2 * s.length + 2) (skipBlanks s.toList)
  if (skipBlanks rest).isEmpty then return value else malformed

end TensorGraph.Json
