import TensorGraph.Error
import TensorGraph.Text.Hex

/-!
JSON text of values. Only ASCII is written: every other character is escaped by its UTF-16 units.
-/

namespace TensorGraph.Json

open Number Text

def unitEscape (unit : Nat) : List Char := '\\' :: 'u' :: hexNumber 4 unit

def escaped (c : Char) : List Char :=
  let n := c.toNat
  if c = '\x22' then ['\\', '\x22']
  else if c = '\\' then ['\\', '\\']
  else if c = '\n' then ['\\', 'n']
  else if c = '\r' then ['\\', 'r']
  else if c = '\t' then ['\\', 't']
  else if n = 12 then ['\\', 'f']
  else if n = 8 then ['\\', 'b']
  else if 0x20 ≤ n ∧ n < 0x7f then [c]
  else if n < 0x10000 then unitEscape n
  else
    let m := n - 0x10000
    unitEscape (0xd800 + m / 0x400) ++ unitEscape (0xdc00 + m % 0x400)

def string (s : String) : String :=
  String.ofList ('\x22' :: s.toList.flatMap escaped ++ ['\x22'])

/-- A number. The values that are no finite numbers have names. -/
def number (x : Binary64) : String :=
  if x.isFinite then x.text
  else if x.isUndefined then "NaN"
  else if x.isNegative then "-Infinity"
  else "Infinity"

/-- What stands between the parts of a list or an object: its items stand on lines of their own
where an indent is given. -/
structure Spacing where
  first : String
  between : String
  last : String

def Spacing.at (indent : Option Int) (depth : Nat) : Spacing :=
  match indent with
  | none => ⟨"", ", ", ""⟩
  | some width =>
    let line (depth : Nat) : String := "\n" ++ "".pushn ' ' (width.toNat * depth)
    ⟨line (depth + 1), "," ++ line (depth + 1), line depth⟩

def Spacing.enclose (s : Spacing) (opening closing : String) (parts : List String) : String :=
  if parts.isEmpty then opening ++ closing
  else opening ++ s.first ++ String.intercalate s.between parts ++ s.last ++ closing

mutual

/-- A value as text. Complex numbers have none. -/
def write (indent : Option Int) (depth : Nat) : Value → Except Error String
  | .null => .ok "null"
  | .bool b => .ok (if b then "true" else "false")
  | .int n => .ok (toString n)
  | .float x => .ok (number x)
  | .complex _ _ => failWith .wrongForm
  | .text s => .ok (string s)
  | .list items => do
    return (Spacing.at indent depth).enclose "[" "]" (← writeItems indent (depth + 1) items)
  | .tuple items => do
    return (Spacing.at indent depth).enclose "[" "]" (← writeItems indent (depth + 1) items)
  | .map entries => do
    return (Spacing.at indent depth).enclose "\x7b" "\x7d"
      (← writeEntries indent (depth + 1) entries)

def writeItems (indent : Option Int) (depth : Nat) : List Value → Except Error (List String)
  | [] => .ok []
  | item :: rest => do return (← write indent depth item) :: (← writeItems indent depth rest)

def writeEntries (indent : Option Int) (depth : Nat) :
    List (String × Value) → Except Error (List String)
  | [] => .ok []
  | entry :: rest => do
    return (← writeEntry indent depth entry) :: (← writeEntries indent depth rest)

def writeEntry (indent : Option Int) (depth : Nat) : String × Value → Except Error String
  | (key, value) => do return string key ++ ": " ++ (← write indent depth value)

end

/-- A value as text, on one line or indented. -/
def render (indent : Option Int) (value : Value) : Except Error String := write indent 0 value

end TensorGraph.Json
