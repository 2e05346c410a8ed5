import TensorGraph.Text.Hex
import TensorGraph.Yaml.Style
import TensorGraph.Yaml.Tree

/-!
YAML text of trees, in block style. Long texts are folded at a single space behind the last
column; the items of a sequence stand as deep as the key before them.
-/

namespace TensorGraph.Yaml

/-- The last column before texts are folded. -/
def lastColumn : Nat := 80

/-- Blanks that indent a line. -/
def pad (n : Nat) : List Char := List.replicate n ' '

def newLine (indent : Nat) : List Char := '\n' :: pad indent

/-- A part of a text that is written as a whole. -/
inductive Run where
  | word (cs : List Char)
  | spaces (count : Nat)
  | breaks (cs : List Char)

/-- Adds a character to the front of the runs behind it. -/
def Run.cons (c : Char) : List Run → List Run
  | .word cs :: rest =>
    if c = ' ' then .spaces 1 :: .word cs :: rest
    else if isBreak c then .breaks [c] :: .word cs :: rest
    else .word (c :: cs) :: rest
  | .spaces n :: rest =>
    if c = ' ' then .spaces (n + 1) :: rest
    else if isBreak c then .breaks [c] :: .spaces n :: rest
    else .word [c] :: .spaces n :: rest
  | .breaks cs :: rest =>
    if c = ' ' then .spaces 1 :: .breaks cs :: rest
    else if isBreak c then .breaks (c :: cs) :: rest
    else .word [c] :: .breaks cs :: rest
  | [] => [if c = ' ' then .spaces 1 else if isBreak c then .breaks [c] else .word [c]]

/-- A text as words, spaces and breaks. -/
def runs (cs : List Char) : List Run := cs.foldr Run.cons []

/-- Runs written from a column on. A single space in the middle is where a line may be folded. -/
def foldRuns (fold : Bool) (indent : Nat) : Nat → Bool → List Run → List Char
  | _, _, [] => []
  | column, _, .word cs :: rest => cs ++ foldRuns fold indent (column + cs.length) false rest
  | column, first, .spaces n :: rest =>
    if fold && n == 1 && lastColumn < column && !first && !rest.isEmpty then
      newLine indent ++ foldRuns fold indent indent false rest
    else pad n ++ foldRuns fold indent (column + n) false rest
  | _, _, .breaks cs :: rest =>
    (if cs.head? = some '\n' then ['\n'] else []) ++ cs ++ pad indent ++
      foldRuns fold indent indent false rest

def plainText (fold : Bool) (indent column : Nat) (cs : List Char) : List Char :=
  foldRuns fold indent column true (runs cs)

/-- A run between single quotes: a quote is written twice. -/
def Run.doubled : Run → Run
  | .word cs => .word (cs.flatMap fun c => if c = '\x27' then ['\x27', '\x27'] else [c])
  | run => run

def singleText (fold : Bool) (indent column : Nat) (cs : List Char) : List Char :=
  '\x27' :: foldRuns fold indent (column + 1) true ((runs cs).map Run.doubled) ++ ['\x27']

/-- The letter of a short escape. -/
def escapeLetter? (c : Char) : Option Char :=
  match c.toNat with
  | 0 => some '0'
  | 7 => some 'a'
  | 8 => some 'b'
  | 9 => some 't'
  | 10 => some 'n'
  | 11 => some 'v'
  | 12 => some 'f'
  | 13 => some 'r'
  | 0x1b => some 'e'
  | 0x22 => some '\x22'
  | 0x5c => some '\\'
  | 0x85 => some 'N'
  | 0xa0 => some '_'
  | 0x2028 => some 'L'
  | 0x2029 => some 'P'
  | _ => none

def hexCapitals (width n : Nat) : List Char := (Text.hexNumber width n).map Char.toUpper

def escapeOf (c : Char) : List Char :=
  match escapeLetter? c with
  | some letter => ['\\', letter]
  | none =>
    let n := c.toNat
    if n ≤ 0xff then '\\' :: 'x' :: hexCapitals 2 n
    else if n ≤ 0xffff then '\\' :: 'u' :: hexCapitals 4 n
    else '\\' :: 'U' :: hexCapitals 8 n

/-- Characters that stand for themselves between double quotes. -/
def standsPlain (c : Char) : Bool :=
  let n := c.toNat
  c ≠ '\x22' && c ≠ '\\' && !isBreak c && c ≠ byteOrderMark &&
    ((0x20 ≤ n && n ≤ 0x7e) || (0xa0 ≤ n && n ≤ 0xd7ff) || (0xe000 ≤ n && n ≤ 0xfffd))

/-- The inside of a text between double quotes. Characters that stand for themselves wait, so that
a line can be folded before them; a fold is marked by a backslash, and so is a space after it. -/
def doubleRest (fold : Bool) (indent : Nat) :
    Nat → Bool → List Char → List Char → List Char
  | _, _, waiting, [] => waiting.reverse
  | column, first, waiting, c :: rest =>
    let plain := standsPlain c
    let written := if plain then [] else waiting.reverse ++ escapeOf c
    let column := column + written.length
    let waiting := if plain then waiting else []
    let skipped := if plain then 0 else 1
    if fold && !first && !rest.isEmpty && (c = ' ' || waiting.isEmpty) &&
        lastColumn + skipped < column + waiting.length then
      let next := if plain then some c else rest.head?
      let mark := if next = some ' ' then ['\\'] else []
      written ++ waiting.reverse ++ '\\' :: newLine indent ++ mark ++
        doubleRest fold indent (indent + mark.length) false (if plain then [c] else []) rest
    else
      written ++
        doubleRest fold indent column false (if plain then c :: waiting else []) rest

def doubleText (fold : Bool) (indent column : Nat) (cs : List Char) : List Char :=
  '\x22' :: doubleRest fold indent (column + 1) true [] cs ++ ['\x22']

/-- What the head of a block says about its indent and its end. -/
def blockHints (cs : List Char) : List Char :=
  let indent := if cs.head?.any (fun c => c = ' ' || isBreak c) then ['2'] else []
  let ending := match cs.reverse with
    | [] => []
    | [c] => if isBreak c then ['+'] else ['-']
    | c :: d :: _ => if !isBreak c then ['-'] else if isBreak d then ['+'] else []
  indent ++ ending

/-- The lines of a block; a line that is empty is not indented. -/
def blockLines (indent : Nat) : Bool → List Char → List Char
  | atStart, [] => if atStart then [] else ['\n']
  | atStart, c :: rest =>
    if isBreak c then c :: blockLines indent true rest
    else (if atStart then pad indent else []) ++ c :: blockLines indent false rest

/-- A scalar at a column, up to the end of its last line. -/
def scalarText (isKey : Bool) (indent column : Nat) (s : String) : List Char :=
  let cs := s.toList
  match styleOf isKey cs with
  | .plain => plainText (!isKey) indent column cs
  | .single => singleText (!isKey) indent column cs
  | .double => doubleText (!isKey) indent column cs
  | .block => '|' :: blockHints cs ++ '\n' :: blockLines indent true cs

/-- A line of its own, or the lines of a block. -/
def ended (cs : List Char) : List Char := if cs.getLast? = some '\n' then cs else cs ++ ['\n']

def valueText (indent column : Nat) (s : String) : List Char :=
  if s = "" then ['\n'] else ' ' :: ended (scalarText false indent (column + 1) s)

mutual

/-- The entries of a mapping, each on lines of its own. -/
def writeEntries (indent : Nat) : List (String × Tree) → List Char
  | [] => []
  | entry :: rest => writeEntry indent entry ++ writeEntries indent rest

/-- An entry. A key that cannot stand beside its value has a mark and lines of its own. -/
def writeEntry (indent : Nat) : String × Tree → List Char
  | (key, tree) =>
    if isSimpleKey key.toList then
      let text := scalarText true indent indent key
      pad indent ++ text ++ ':' :: writeValue indent (indent + text.length + 1) tree
    else
      pad indent ++ '?' :: ' ' :: ended (scalarText false (indent + 2) (indent + 2) key) ++
        pad indent ++ ':' :: writeBeside indent tree

/-- A value after a key on the same line. -/
def writeValue (indent column : Nat) : Tree → List Char
  | .scalar s => valueText (indent + 2) column s
  | .sequence items => '\n' :: writeItems indent items
  | .mapping entries => '\n' :: writeEntries (indent + 2) entries

/-- A value after a key on lines of its own. -/
def writeBeside (indent : Nat) : Tree → List Char
  | .scalar s => valueText (indent + 2) (indent + 1) s
  | .sequence items => ' ' :: (writeItems (indent + 2) items).drop (indent + 2)
  | .mapping entries => ' ' :: (writeEntries (indent + 2) entries).drop (indent + 2)

/-- The items of a sequence, each on lines of its own. -/
def writeItems (indent : Nat) : List Tree → List Char
  | [] => []
  | item :: rest => writeItem indent item ++ writeItems indent rest

/-- An item. A collection starts beside the mark of the item. -/
def writeItem (indent : Nat) : Tree → List Char
  | .scalar s =>
    pad indent ++ '-' :: ' ' :: ended (scalarText false (indent + 2) (indent + 2) s)
  | .sequence items =>
    pad indent ++ '-' :: ' ' :: (writeItems (indent + 2) items).drop (indent + 2)
  | .mapping entries =>
    pad indent ++ '-' :: ' ' :: (writeEntries (indent + 2) entries).drop (indent + 2)

end

def Tree.render : Tree → String
  | .scalar s => String.ofList (ended (scalarText false 0 0 s))
  | .sequence items => String.ofList (writeItems 0 items)
  | .mapping entries => String.ofList (writeEntries 0 entries)

end TensorGraph.Yaml
