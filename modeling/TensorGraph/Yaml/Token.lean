import TensorGraph.Yaml.ScalarText

/-!
Tokens of YAML text. Indentation is told by tokens that open and close collections. A key is
recognised by the colon behind it, so a token that may turn out to be a key is remembered until
its line ends; the token for the key is then put in before it.
-/

namespace TensorGraph.Yaml

/-- The pieces of YAML text. -/
inductive Token where
  /-- A directive; one for a version tells its first number. -/
  | directive (version : Option Nat)
  | documentStart
  | documentEnd
  | streamEnd
  | sequenceStart
  | mappingStart
  | blockEnd
  | entry
  | key
  | value
  | alias
  | anchor
  | tag
  /-- An opening bracket. -/
  | flowStart
  | flowEnd
  | flowEntry
  | scalar (s : String)
  /-- Text that is no token. -/
  | broken
deriving DecidableEq, Repr

/-- A token with the line on which it starts, and whether it may turn out to be a key. -/
structure Placed where
  token : Token
  line : Nat
  maybeKey : Bool
deriving Repr

/-- A token that may turn out to be a key: its place among the tokens and in the text, and whether
nothing else would be right there. -/
structure PossibleKey where
  position : Nat
  required : Bool
  index : Nat
  line : Nat
  column : Nat
deriving Repr

/-- The state of reading tokens. -/
structure Scanner where
  cursor : Cursor
  /-- The tokens read so far, the last one first. -/
  done : List Placed := []
  count : Nat := 0
  /-- The column of the collection that is open, and of those around it. -/
  indent : Int := -1
  outer : List Int := []
  /-- Whether a key may start here. -/
  allowKey : Bool := true
  possible : Option PossibleKey := none
  /-- How many brackets are open. -/
  flowDepth : Nat := 0
  finished : Bool := false

namespace Scanner

/-- Whether the cursor stands inside brackets. -/
def inFlow (s : Scanner) : Bool := s.flowDepth != 0

def push (s : Scanner) (token : Token) (maybeKey : Bool) : Scanner :=
  { s with done := ⟨token, s.cursor.line, maybeKey⟩ :: s.done, count := s.count + 1 }

/-- Puts a token in before the token at a position. -/
def insertAt (s : Scanner) (position line : Nat) (token : Token) : Scanner :=
  let after := s.count - position
  { s with
    done := s.done.take after ++ ⟨token, line, false⟩ :: s.done.drop after, count := s.count + 1 }

/-- Forgets the possible key. One that has to be a key is missed. -/
def dropKey (s : Scanner) : Except Error Scanner :=
  if s.inFlow then .ok s
  else if s.possible.any (·.required) then malformed
  else .ok { s with possible := none }

/-- How far apart a key and its colon may stand. -/
def keyReach : Nat := 1024

/-- Forgets a possible key whose line has ended. -/
def dropStaleKey (s : Scanner) : Except Error Scanner :=
  match s.possible with
  | none => .ok s
  | some k =>
    if k.line ≠ s.cursor.line ∨ keyReach < s.cursor.index - k.index then
      if k.required then malformed else .ok { s with possible := none }
    else .ok s

/-- Remembers the next token as a possible key. -/
def saveKey (s : Scanner) : Except Error Scanner :=
  if s.inFlow || !s.allowKey then .ok s
  else do
    let s ← s.dropKey
    let c := s.cursor
    let key : PossibleKey := ⟨s.count, s.indent = c.column, c.index, c.line, c.column⟩
    return { s with possible := some key }

/-- Closes the collections that are deeper than a column. -/
def unwind (s : Scanner) (column : Int) : List Int → Scanner
  | [] => s
  | outer :: rest =>
    if column < s.indent then
      unwind { s.push .blockEnd false with indent := outer, outer := rest } column rest
    else s

/-- Closes the collections that are deeper than a column; between brackets columns do not
count. -/
def unwindTo (s : Scanner) (column : Int) : Scanner :=
  if s.inFlow then s else s.unwind column s.outer

/-- Opens a collection at a column that is deeper than the one that is open. -/
def opens (s : Scanner) (column : Nat) : Bool := s.indent < column

/-- Enters a block that begins at a column. -/
def enter (s : Scanner) (column : Nat) : Scanner :=
  { s with indent := column, outer := s.indent :: s.outer }

/-- Reads one-character tokens and the like: the token stands here and takes some characters. -/
def take (s : Scanner) (token : Token) (width : Nat) : Scanner :=
  let s := s.push token false
  { s with cursor := s.cursor.skip width }

/-- The end of the text, a directive or a mark of a document: all collections end before it. -/
def leaveAll (s : Scanner) : Except Error Scanner := do
  let s ← (s.unwindTo (-1)).dropKey
  return { s with allowKey := false }

/-! ### Directives and tags -/

/-- The number of a version directive before its point. -/
def readVersion (c : Cursor) : Except Error (Nat × Cursor) :=
  let c := c.skipWhile (· = ' ')
  let major := c.taken Char.isDigit
  let c := c.skip major.length
  let minor := (c.next.taken Char.isDigit).length
  if major.isEmpty || c.rest.head? ≠ some '.' || minor == 0 then malformed
  else
    let c := c.next.skip minor
    if c.rest.head?.all fun ch => ch = ' ' || startsBreak ch then
      .ok (major.foldl (fun n d => 10 * n + (d.toNat - 48)) 0, c)
    else malformed

/-- Characters of the name of a directive. -/
def isNameChar (c : Char) : Bool := c.isAlphanum || c = '-' || c = '_'

def isTagChar (c : Char) : Bool :=
  c.isAlphanum || "-;/?:@&=+$,_.!~*\x27()[]#".toList.contains c

/-- The length of the characters of a tag; a percent sign stands before two digits. -/
def tagLength : List Char → Option Nat
  | '%' :: a :: b :: rest =>
    if (Text.hexRead? [a, b]).isSome then (tagLength rest).map (· + 3) else none
  | '%' :: _ => none
  | c :: rest => if isTagChar c then (tagLength rest).map (· + 1) else some 0
  | [] => some 0

/-- The characters of a tag, of which there is at least one. -/
def readTagChars (c : Cursor) : Except Error Cursor :=
  match tagLength c.rest with
  | some 0 => malformed
  | some n => .ok (c.skip n)
  | none => malformed

/-- The name of a family of tags, between two marks. -/
def readHandle (c : Cursor) : Except Error Cursor :=
  let c := c.next
  if c.rest.head? = some ' ' then .ok c
  else
    let c := c.skipWhile isNameChar
    if c.rest.head? = some '!' then .ok c.next else malformed

def readTagDirective (c : Cursor) : Except Error Cursor := do
  let c := c.skipWhile (· = ' ')
  if c.rest.head? ≠ some '!' then malformed
  let c ← readHandle c
  if c.rest.head? ≠ some ' ' then malformed
  let c ← readTagChars (c.skipWhile (· = ' '))
  if c.rest.head?.all fun ch => ch = ' ' || startsBreak ch then return c else malformed

/-- The rest of the line of a directive: blanks and a comment. -/
def readDirectiveEnd (c : Cursor) : Except Error Cursor := blockHeadEnd c

/-- A directive. One that is not known is skipped. -/
def readDirective (c : Cursor) : Except Error (Option Nat × Cursor) := do
  let c := c.next
  let name := c.taken isNameChar
  let c := c.skip name.length
  if name.isEmpty then malformed
  if !c.rest.head?.all fun ch => ch = ' ' || startsBreak ch then malformed
  if name = "YAML".toList then
    let (major, c) ← readVersion c
    return (some major, ← readDirectiveEnd c)
  else if name = "TAG".toList then
    return (none, ← readDirectiveEnd (← readTagDirective c))
  else return (none, ← readDirectiveEnd (c.skipWhile fun ch => !endsLine ch))

def readTag (c : Cursor) : Except Error Cursor := do
  let c ←
    if (c.skip 1).rest.head? = some '<' then do
      let c ← readTagChars (c.skip 2)
      if c.rest.head? = some '>' then pure c.next else malformed
    else if atWordEnd (c.skip 1).rest then pure c.next
    else
      let word := (c.skip 1).taken fun ch => ch ≠ ' ' && !startsBreak ch
      if word.contains '!' then do readTagChars (← readHandle c)
      else readTagChars c.next
  if c.rest.head?.all fun ch => ch = ' ' || startsBreak ch then return c else malformed

/-- Characters of the name of an anchor. -/
def isAnchorChar (c : Char) : Bool :=
  let n := c.toNat
  !endsWord c && isAllowed c && c ≠ byteOrderMark && 0x20 < n &&
    !(c = ',' || c = '[' || c = ']' || c = '\x7b' || c = '\x7d')

/-- The name of an anchor, behind its mark. -/
def readAnchor (c : Cursor) : Except Error Cursor :=
  let c := c.next
  let name := c.taken isAnchorChar
  if name.isEmpty then malformed else .ok (c.skip name.length)

/-! ### Tokens -/

/-- A token that may be a key, with the place behind it. -/
def pushNode (s : Scanner) (token : Token) (c : Cursor) : Except Error Scanner := do
  let maybeKey := s.allowKey && !s.inFlow
  let s := (← s.saveKey).push token maybeKey
  return { s with allowKey := false, cursor := c }

/-- The mark of an item. -/
def readEntry (s : Scanner) : Except Error Scanner := do
  if !s.inFlow && !s.allowKey then malformed
  let column := s.cursor.column
  let s := if !s.inFlow && s.opens column then (s.push .sequenceStart false).enter column else s
  let s ← { s with allowKey := true }.dropKey
  return s.take .entry 1

/-- The mark of a key on lines of its own. -/
def readKey (s : Scanner) : Except Error Scanner := do
  if !s.inFlow && !s.allowKey then malformed
  let column := s.cursor.column
  let s := if !s.inFlow && s.opens column then (s.push .mappingStart false).enter column else s
  let s ← { s with allowKey := !s.inFlow }.dropKey
  return s.take .key 1

/-- The mark of a value. If there is a possible key, it is one. -/
def readValue (s : Scanner) : Except Error Scanner := do
  let key := if s.inFlow then none else s.possible
  match key with
  | some k =>
    let s := { s with possible := none, allowKey := false }.insertAt k.position k.line .key
    let s :=
      if s.opens k.column then (s.insertAt k.position k.line .mappingStart).enter k.column else s
    return s.take .value 1
  | none =>
    if !s.inFlow && !s.allowKey then malformed
    let column := s.cursor.column
    let s := if !s.inFlow && s.opens column then (s.push .mappingStart false).enter column else s
    let s ← { s with allowKey := !s.inFlow }.dropKey
    return s.take .value 1

/-- An opening bracket. -/
def readFlowStart (s : Scanner) : Except Error Scanner := do
  let s ← s.pushNode .flowStart s.cursor.next
  return { s with flowDepth := s.flowDepth + 1, allowKey := true }

/-- A closing bracket. -/
def readFlowEnd (s : Scanner) : Except Error Scanner := do
  let s ← s.dropKey
  let s := s.take .flowEnd 1
  return { s with flowDepth := s.flowDepth - 1, allowKey := false }

/-- A comma. -/
def readFlowEntry (s : Scanner) : Except Error Scanner := do
  let s ← { s with allowKey := true }.dropKey
  return s.take .flowEntry 1

/-- A block of lines. -/
def readBlock (s : Scanner) (fold : Bool) : Except Error Scanner := do
  let s ← { s with allowKey := true }.dropKey
  let (text, c) ← blockScalar fold s.indent s.cursor
  return { s.push (.scalar text) false with cursor := c }

/-- Whether a text without quotes starts here. -/
def startsPlain (flow : Bool) : List Char → Bool
  | [] => false
  | c :: rest =>
    let indicator := "-?:,[]\x7b\x7d#&*!|>\x27\x22%@\x60".toList.contains c
    if !indicator && !endsWord c && !isBreak c then true
    else !atWordEnd rest && (c = '-' || (c = '?' && !flow) || c = ':')

def readPlain (s : Scanner) : Except Error Scanner := do
  let (text, crossed, c) := plainScalar s.inFlow s.indent s.cursor
  let s ← s.pushNode (.scalar text) c
  return { s with allowKey := crossed }

def readToken (s : Scanner) (ch : Char) (rest : List Char) : Except Error Scanner := do
  let c := s.cursor
  if ch = '%' && c.column == 0 then
    let s ← s.leaveAll
    let (version, c) ← readDirective c
    return { s.push (.directive version) false with cursor := c }
  else if c.column == 0 && c.atTriple '-' then return (← s.leaveAll).take .documentStart 3
  else if c.column == 0 && c.atTriple '.' then return (← s.leaveAll).take .documentEnd 3
  else if ch = '[' || ch = '\x7b' then s.readFlowStart
  else if ch = ']' || ch = '\x7d' then s.readFlowEnd
  else if ch = ',' then s.readFlowEntry
  else if ch = '-' && atWordEnd rest then s.readEntry
  else if ch = '?' && (s.inFlow || atWordEnd rest) then s.readKey
  else if ch = ':' && (s.inFlow || atWordEnd rest) then s.readValue
  else if ch = '*' then s.pushNode .alias (← readAnchor c)
  else if ch = '&' then s.pushNode .anchor (← readAnchor c)
  else if ch = '!' then s.pushNode .tag (← readTag c)
  else if ch = '|' && !s.inFlow then s.readBlock false
  else if ch = '>' && !s.inFlow then s.readBlock true
  else if ch = '\x27' || ch = '\x22' then
    let (text, c) ← quotedScalar (ch = '\x22') c
    s.pushNode (.scalar text) c
  else if startsPlain s.inFlow c.rest then s.readPlain
  else malformed

/-- Reads one more token, or the end of the text. -/
def step (s : Scanner) : Except Error Scanner := do
  let c := if s.cursor.index = 0 ∧ s.cursor.rest.head? = some byteOrderMark then s.cursor.next
    else s.cursor
  let (crossed, c) := c.toToken (c.rest.length + 1) false
  let s := { s with cursor := c, allowKey := s.allowKey || (crossed && !s.inFlow) }
  let s ← s.dropStaleKey
  let s := s.unwindTo c.column
  match c.rest with
  | [] => return { (← s.leaveAll).push .streamEnd false with finished := true }
  | ch :: rest => s.readToken ch rest

/-- Reads tokens up to the end of the text, or up to text that is none. Each step takes a
character, or ends the text. -/
def run : Nat → Scanner → Except Error (List Placed)
  | 0, s => .ok s.done.reverse
  | fuel + 1, s =>
    if s.finished then .ok s.done.reverse
    else
      match s.step with
      | .ok s => run fuel s
      | .error (.fault .yamlText) => .ok (s.push .broken false).done.reverse
      | .error e => .error e

end Scanner

def Token.scan (text : String) : Except Error (List Placed) :=
  let cs := text.toList
  Scanner.run (cs.length + 2) { cursor := { rest := cs } }

end TensorGraph.Yaml
