import TensorGraph.Error
import TensorGraph.Text.Hex
import TensorGraph.Yaml.Cursor

/-!
Reading scalars: words without quotes, quoted texts and blocks. Line breaks inside a text are
folded: a single one reads as a space, and of several the first one is dropped.
-/

namespace TensorGraph.Yaml

open Text

/-- Text that is not well formed. -/
def malformed {α : Type} : Except Error α := failWith .yamlText

/-- What the line breaks inside a text stand for: the first one, and those after it. -/
def folded (first others : List Char) : List Char :=
  (if first ≠ ['\n'] then first else if others.isEmpty then [' '] else []) ++ others

/-! ### Texts without quotes -/

/-- Characters that end a word inside brackets. -/
def endsFlowWord (c : Char) : Bool :=
  [',', ':', '?', '[', ']', '\x7b', '\x7d'].contains c

/-- The length of the word at the start of a text. -/
def wordLength (flow : Bool) : List Char → Nat
  | [] => 0
  | c :: rest =>
    if (c = ':' && !atWordEnd rest) || c = '?' then wordLength flow rest + 1
    else if endsWord c || c = ':' || (flow && endsFlowWord c) then 0
    else wordLength flow rest + 1

/-- The breaks and spaces before the next line that holds something. A mark of a document ends
the text. -/
def plainBreaks : Nat → List Char → Cursor → Option (List Char × Cursor)
  | 0, done, c => some (done, c)
  | fuel + 1, done, c =>
    if c.rest.head? = some ' ' then plainBreaks fuel done c.next
    else
      match c.lineBreak with
      | ([], _) => some (done, c)
      | (b, c) => if c.atDocumentMark then none else plainBreaks fuel (done ++ b) c

/-- What stands between two words, and whether a line ended there. Nothing stands between them
where the text ends. -/
def plainSpaces (c : Cursor) : List Char × Bool × Cursor :=
  let blanks := c.taken (· = ' ')
  let c := c.skip blanks.length
  match c.lineBreak with
  | ([], _) => (blanks, false, c)
  | (b, c) =>
    if c.atDocumentMark then ([], true, c)
    else
      match plainBreaks c.rest.length [] c with
      | some (others, c) => (folded b others, true, c)
      | none => ([], true, c)

/-- The words of a text without quotes. Also says whether a line ended behind the last word. -/
def plainWords (flow : Bool) (indent : Int) :
    Nat → List Char → List Char → Bool → Cursor → List Char × Bool × Cursor
  | 0, done, _, crossed, c => (done, crossed, c)
  | fuel + 1, done, spaces, crossed, c =>
    let length := if c.rest.head? = some '#' then 0 else wordLength flow c.rest
    if length = 0 then (done, crossed, c)
    else
      let done := done ++ spaces ++ c.rest.take length
      let (spaces, crossed, c) := plainSpaces (c.skip length)
      if spaces.isEmpty || c.rest.head? = some '#' || (!flow && (c.column : Int) < indent) then
        (done, crossed, c)
      else plainWords flow indent fuel done spaces crossed c

/-- A text without quotes: it goes on over lines that are indented. -/
def plainScalar (flow : Bool) (indent : Int) (c : Cursor) : String × Bool × Cursor :=
  let (text, crossed, c) := plainWords flow (indent + 1) c.rest.length [] [] false c
  (String.ofList text, crossed, c)

/-! ### Quoted texts -/

/-- The line breaks after the first one inside a quoted text. A mark of a document is refused. -/
def quotedBreaks : Nat → List Char → Cursor → Except Error (List Char × Cursor)
  | 0, done, c => .ok (done, c)
  | fuel + 1, done, c =>
    if c.atDocumentMark then malformed
    else
      let c := c.skipWhile fun ch => ch = ' ' || ch = '\t'
      match c.lineBreak with
      | ([], _) => .ok (done, c)
      | (b, c) => quotedBreaks fuel (done ++ b) c

/-- The character of an escape of one letter. -/
def escapedLetter? : Char → Option Char
  | '0' => some '\x00'
  | 'a' => some '\x07'
  | 'b' => some '\x08'
  | 't' => some '\t'
  | '\t' => some '\t'
  | 'n' => some '\n'
  | 'v' => some '\x0b'
  | 'f' => some '\x0c'
  | 'r' => some '\r'
  | 'e' => some '\x1b'
  | ' ' => some ' '
  | '\x22' => some '\x22'
  | '/' => some '/'
  | '\\' => some '\\'
  | 'N' => some '\x85'
  | '_' => some '\xa0'
  | 'L' => some '\u2028'
  | 'P' => some '\u2029'
  | _ => none

/-- How many digits the code after an escape has. -/
def codeWidth? : Char → Option Nat
  | 'x' => some 2
  | 'u' => some 4
  | 'U' => some 8
  | _ => none

/-- The character with a code. Codes above all characters are refused; half of a pair stands for
no character. -/
def charOfCode (code : Nat) : Except Error Char :=
  if 0x110000 ≤ code then failWith .badValue
  else if 0xd800 ≤ code ∧ code < 0xe000 then .ok '\ufffd'
  else .ok (Char.ofNat code)

/-- What an escape stands for; the backslash has been read. An escaped line break stands for the
breaks after it. -/
def quotedEscape (c : Cursor) : Except Error (List Char × Cursor) :=
  match c.rest with
  | [] => malformed
  | ch :: rest =>
    match escapedLetter? ch, codeWidth? ch with
    | some d, _ => .ok ([d], c.next)
    | none, some width =>
      if rest.length < width then malformed
      else match hexRead? (rest.take width) with
        | some code => do return ([← charOfCode code], c.skip (width + 1))
        | none => malformed
    | none, none =>
      if startsBreak ch then quotedBreaks c.rest.length [] c.lineBreak.2 else malformed

/-- The rest of a quoted text up to its end; the opening mark has been read. -/
def quotedRest (double : Bool) :
    Nat → List Char → Cursor → Except Error (List Char × Cursor)
  | 0, _, _ => malformed
  | fuel + 1, done, c =>
    match c.rest with
    | [] => malformed
    | ch :: rest =>
      if ch = '\x27' && !double then
        if rest.head? = some '\x27' then quotedRest double fuel (done ++ ['\x27']) (c.skip 2)
        else .ok (done, c.next)
      else if ch = '\x22' && double then .ok (done, c.next)
      else if ch = '\\' && double then do
        let (more, c) ← quotedEscape c.next
        quotedRest double fuel (done ++ more) c
      else if ch = ' ' || ch = '\t' || startsBreak ch then do
        let blanks := c.taken fun ch => ch = ' ' || ch = '\t'
        let c := c.skip blanks.length
        match c.lineBreak with
        | ([], _) => quotedRest double fuel (done ++ blanks) c
        | (b, c) =>
          let (others, c) ← quotedBreaks c.rest.length.succ [] c
          quotedRest double fuel (done ++ folded b others) c
      else quotedRest double fuel (done ++ [ch]) c.next

def quotedScalar (double : Bool) (c : Cursor) : Except Error (String × Cursor) := do
  let (text, c) ← quotedRest double (c.rest.length + 1) [] c.next
  return (String.ofList text, c)

/-! ### Blocks -/

/-- What the head of a block says: how its end is treated, and its indent. -/
structure BlockHead where
  /-- Whether all line breaks at the end are kept, or none; one is kept where nothing is said. -/
  keep : Option Bool
  indent : Option Nat

/-- Whether an indicator keeps the line breaks at the end of a block. -/
def keepOf? : Char → Option Bool
  | '+' => some true
  | '-' => some false
  | _ => none

def digitOf? (c : Char) : Option Nat := if c.isDigit then some (c.toNat - 48) else none

/-- The head of a block, behind its mark. -/
def blockHead (c : Cursor) : Except Error (BlockHead × Cursor) := do
  let keep := c.rest.head?.bind keepOf?
  let c := if keep.isSome then c.next else c
  let indent := c.rest.head?.bind digitOf?
  let c := if indent.isSome then c.next else c
  let (keep, c) := match keep, indent with
    | none, some _ =>
      let keep := c.rest.head?.bind keepOf?
      (keep, if keep.isSome then c.next else c)
    | _, _ => (keep, c)
  if indent = some 0 then malformed
  let fits := match c.rest.head? with
    | some ch => ch = ' ' || startsBreak ch
    | none => true
  if fits then return (⟨keep, indent⟩, c) else malformed

/-- The rest of the line of the head: blanks and a comment. -/
def blockHeadEnd (c : Cursor) : Except Error Cursor :=
  let c := c.skipWhile (· = ' ')
  let c := if c.rest.head? = some '#' then c.skipWhile fun ch => !endsLine ch else c
  if atLineEnd c.rest then .ok c.lineBreak.2 else malformed

/-- The empty lines at the start of a block, and the deepest column of a space among them. -/
def blockStart : Nat → List Char → Nat → Cursor → List Char × Nat × Cursor
  | 0, done, deepest, c => (done, deepest, c)
  | fuel + 1, done, deepest, c =>
    if c.rest.head? = some ' ' then
      let c := c.next
      blockStart fuel done (max deepest c.column) c
    else
      match c.lineBreak with
      | ([], _) => (done, deepest, c)
      | (b, c) => blockStart fuel (done ++ b) deepest c

/-- The place behind the spaces of an indent. -/
def skipIndent (indent : Nat) (c : Cursor) : Cursor :=
  c.skip (min (indent - c.column) (c.taken (· = ' ')).length)

/-- The line breaks between two lines of a block. -/
def blockBreaks (indent : Nat) : Nat → List Char → Cursor → List Char × Cursor
  | 0, done, c => (done, c)
  | fuel + 1, done, c =>
    let c := skipIndent indent c
    match c.lineBreak with
    | ([], _) => (done, c)
    | (b, c) => blockBreaks indent fuel (done ++ b) c

def atBlank (c : Cursor) : Bool := c.rest.head?.any fun ch => ch = ' ' || ch = '\t'

/-- What a line break of a block reads as. Where lines are folded, two lines that hold text are
joined. -/
def joined (fold : Bool) (b breaks : List Char) (startsBlank : Bool) (c : Cursor) : List Char :=
  if fold && b = ['\n'] && !startsBlank && !atBlank c then
    if breaks.isEmpty then [' '] else []
  else b

/-- The lines of a block: their text, the last line break and the breaks after it. -/
def blockRest (fold atRoot : Bool) (indent : Nat) :
    Nat → List Char → List Char → List Char → Cursor →
      List Char × List Char × List Char × Cursor
  | 0, done, last, breaks, c => (done, last, breaks, c)
  | fuel + 1, done, last, breaks, c =>
    if c.column ≠ indent || c.rest.isEmpty then (done, last, breaks, c)
    else
      let startsBlank := atBlank c
      let line := c.taken fun ch => !endsLine ch
      let (b, after) := (c.skip line.length).lineBreak
      let done := done ++ breaks ++ line
      let (breaks, after) := blockBreaks indent after.rest.length.succ [] after
      let goesOn := after.column = indent && !after.rest.isEmpty
      if !goesOn || (atRoot && after.column == 0 && after.atDocumentMark) then
        (done, b, breaks, after)
      else
        blockRest fold atRoot indent fuel (done ++ joined fold b breaks startsBlank after) b
          breaks after

/-- A block below a given indent. The last line break stands unless the head drops it; those
after it stand if the head keeps them. -/
def blockScalar (fold : Bool) (indent : Int) (c : Cursor) : Except Error (String × Cursor) := do
  let (head, c) ← blockHead c.next
  let c ← blockHeadEnd c
  let least := (indent + 1).toNat
  let (breaks, width, c) := match head.indent with
    | none =>
      let (breaks, deepest, c) := blockStart c.rest.length [] 0 c
      (breaks, max least deepest, c)
    | some n =>
      let width := max least 1 + n - 1
      let (breaks, c) := blockBreaks width c.rest.length.succ [] c
      (breaks, width, c)
  let atRoot := least == 0
  let (text, last, breaks, c) := blockRest fold atRoot width c.rest.length [] [] breaks c
  let text := if head.keep = some false then text else text ++ last
  let text := if head.keep = some true then text ++ breaks else text
  return (String.ofList text, c)

end TensorGraph.Yaml
