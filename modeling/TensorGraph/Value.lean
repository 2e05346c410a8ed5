import TensorGraph.Number.Decimal
import TensorGraph.OrderedMap
import TensorGraph.Text.Quoted

/-!
Loose values: what a document, an attribute or an argument may hold before it has been checked.
Messages show a value either quoted, as it would stand inside another value, or plain, where a
text stands for itself.
-/

namespace TensorGraph

open Number Text

/-- A value whose form has not been checked. -/
inductive Value where
  | null
  | bool (b : Bool)
  | int (n : Int)
  | float (x : Binary64)
  | complex (re im : Binary64)
  | text (s : String)
  | list (items : List Value)
  | tuple (items : List Value)
  | map (entries : List (String × Value))
deriving Repr, Inhabited

/-- A number as part of a complex one: without a fraction that is zero. -/
def shortFloat (x : Binary64) : String :=
  let s := x.text
  if s.endsWith ".0" then String.ofList (s.toList.take (s.length - 2)) else s

/-- A complex number. A real part that is a positive zero is left out. -/
def shownComplex (re im : Binary64) : String :=
  if re.isZero && !re.isNegative then shortFloat im ++ "j"
  else
    let sign := if (shortFloat im).startsWith "-" then "" else "+"
    "(" ++ shortFloat re ++ sign ++ shortFloat im ++ "j)"

def shownBool (b : Bool) : String := if b then "True" else "False"

/-- Items between round brackets; a single one is followed by a comma. -/
def shownTuple : List String → String
  | [item] => "(" ++ item ++ ",)"
  | items => "(" ++ String.intercalate ", " items ++ ")"

/-- Items between square brackets. -/
def shownList (items : List String) : String := "[" ++ String.intercalate ", " items ++ "]"

namespace Value

mutual

/-- A value as it stands inside another one. -/
def shown : Value → String
  | .null => "None"
  | .bool b => shownBool b
  | .int n => toString n
  | .float x => x.text
  | .complex re im => shownComplex re im
  | .text s => quoted s
  | .list items => shownList (shownItems items)
  | .tuple items => shownTuple (shownItems items)
  | .map entries => "\x7b" ++ String.intercalate ", " (shownEntries entries) ++ "\x7d"

/-- The items of a list as they are shown. -/
def shownItems : List Value → List String
  | [] => []
  | item :: rest => item.shown :: shownItems rest

/-- The entries of a map as they are shown. -/
def shownEntries : List (String × Value) → List String
  | [] => []
  | entry :: rest => shownEntry entry :: shownEntries rest

def shownEntry : String × Value → String
  | (key, value) => quoted key ++ ": " ++ value.shown

end

/-- A value by itself: a text stands for itself. -/
def plain : Value → String
  | .text s => s
  | value => value.shown

/-- Whether a value counts as present: zeros, and values that hold nothing, do not. -/
def isPresent : Value → Bool
  | .null => false
  | .bool b => b
  | .int n => n != 0
  | .float x => !x.isZero
  | .complex re im => !(re.isZero && im.isZero)
  | .text s => s != ""
  | .list items => !items.isEmpty
  | .tuple items => !items.isEmpty
  | .map entries => !entries.isEmpty

/-- The items of a value that can be listed: a text lists its characters, a map its keys. -/
def items? : Value → Option (List Value)
  | .text s => some (s.toList.map fun c => .text (String.ofList [c]))
  | .list items => some items
  | .tuple items => some items
  | .map entries => some (entries.map fun entry => .text entry.1)
  | _ => none

def entries? : Value → Option (Entries Value)
  | .map entries => some entries
  | _ => none

/-- A plain integer; a truth value is none. -/
def int? : Value → Option Int
  | .int n => some n
  | _ => none

def text? : Value → Option String
  | .text s => some s
  | _ => none

/-- All values of a list, if each has one. -/
def allInts? (values : List Value) : Option (List Int) := values.mapM int?

theorem allInts?_map_int (ns : List Int) : allInts? (ns.map .int) = some ns := by
  unfold allInts?
  induction ns with
  | nil => rfl
  | cons n rest ih => simp [List.mapM_cons, int?, ih]

/-- Nothing but an integer is read as one, truth values included. -/
theorem int?_eq_some_iff {value : Value} {n : Int} : value.int? = some n ↔ value = .int n := by
  cases value <;> simp [int?]

theorem allInts?_eq_some_iff {items : List Value} {ns : List Int} :
    allInts? items = some ns ↔ items = ns.map .int := by
  constructor
  · intro read
    induction items generalizing ns with
    | nil =>
      cases read
      rfl
    | cons item rest ih =>
      rw [allInts?, List.mapM_cons, Option.bind_eq_bind, Option.bind_eq_some_iff] at read
      obtain ⟨n, first, read⟩ := read
      rw [Option.bind_eq_bind, Option.bind_eq_some_iff] at read
      obtain ⟨later, others, read⟩ := read
      cases read
      rw [int?_eq_some_iff.1 first, ih others, List.map_cons]
  · rintro rfl
    exact allInts?_map_int ns

def ofInts (ns : List Int) : Value := .list (ns.map .int)

def ofNats (ns : List Nat) : Value := ofInts (ns.map Int.ofNat)

def ofTexts (names : List String) : Value := .list (names.map .text)

/-! ### Equality -/

mutual

def same : Value → Value → Bool
  | .null, .null => true
  | .bool b, .bool c => b = c
  | .int n, .int m => n = m
  | .float x, .float y => x = y
  | .complex re im, .complex re' im' => re = re' && im = im'
  | .text s, .text t => s = t
  | .list items, .list others => sameItems items others
  | .tuple items, .tuple others => sameItems items others
  | .map entries, .map others => sameEntries entries others
  | _, _ => false

def sameItems : List Value → List Value → Bool
  | [], [] => true
  | item :: items, other :: others => same item other && sameItems items others
  | _, _ => false

def sameEntries : List (String × Value) → List (String × Value) → Bool
  | [], [] => true
  | entry :: entries, other :: others => sameEntry entry other && sameEntries entries others
  | _, _ => false

def sameEntry : String × Value → String × Value → Bool
  | (key, value), (key', value') => key = key' && same value value'

end

mutual

theorem same_iff : ∀ value other : Value, same value other = true ↔ value = other
  | .null, other => by cases other <;> simp [same]
  | .bool _, other => by cases other <;> simp [same]
  | .int _, other => by cases other <;> simp [same]
  | .float _, other => by cases other <;> simp [same]
  | .complex _ _, other => by cases other <;> simp [same]
  | .text _, other => by cases other <;> simp [same]
  | .list items, other => by
    cases other with
    | list others => simp [same, sameItems_iff items others]
    | _ => simp [same]
  | .tuple items, other => by
    cases other with
    | tuple others => simp [same, sameItems_iff items others]
    | _ => simp [same]
  | .map entries, other => by
    cases other with
    | map others => simp [same, sameEntries_iff entries others]
    | _ => simp [same]

theorem sameItems_iff : ∀ items others : List Value, sameItems items others = true ↔ items = others
  | [], [] | [], _ :: _ | _ :: _, [] => by simp [sameItems]
  | item :: items, other :: others => by
    simp [sameItems, same_iff item other, sameItems_iff items others]

theorem sameEntries_iff : ∀ entries others : List (String × Value),
    sameEntries entries others = true ↔ entries = others
  | [], [] | [], _ :: _ | _ :: _, [] => by simp [sameEntries]
  | entry :: entries, other :: others => by
    simp [sameEntries, sameEntry_iff entry other, sameEntries_iff entries others]

theorem sameEntry_iff : ∀ entry other : String × Value, sameEntry entry other = true ↔ entry = other
  | (_, value), (_, other) => by simp [sameEntry, same_iff value other]

end

instance : DecidableEq Value := fun value other => decidable_of_iff _ (same_iff value other)

end Value

end TensorGraph
