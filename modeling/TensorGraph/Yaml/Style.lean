import TensorGraph.Yaml.Chars

/-!
Styles of scalars: how a text has to be written so that it reads back. A text with lines is
written as a block, any other one plain, unless it could be taken for something else; then it
stands between quotes.
-/

namespace TensorGraph.Yaml

/-- How a scalar is written. -/
inductive Style where
  | plain
  | single
  | double
  /-- Line by line, below the place where the text stands. -/
  | block
deriving DecidableEq, Repr

/-- Characters that are written as escapes, or not at all. -/
def isSpecial (c : Char) : Bool :=
  c = '\t' || c = '\r' || c = byteOrderMark || !isAllowed c

/-- Blanks beside which an indicator counts as one. -/
def separates (c : Char) : Bool :=
  c = '\x00' || c = ' ' || c = '\t' || c = '\r' || isBreak c

/-- Whether a blank or nothing follows. -/
def separated : List Char → Bool
  | [] => true
  | c :: _ => separates c

/-- Characters that mark something else where they stand first. -/
def leadingIndicators : List Char :=
  ['#', ',', '[', ']', '\x7b', '\x7d', '&', '*', '!', '|', '>', '\x27', '\x22', '%', '@', '\x60']

/-- Whether the first character marks something else. -/
def startsWithIndicator : List Char → Bool
  | [] => false
  | c :: rest =>
    leadingIndicators.contains c || ((c = '?' || c = ':' || c = '-') && separated rest)

/-- Whether a mark of a value or of a comment stands behind the given character. -/
def holdsIndicator : Char → List Char → Bool
  | _, [] => false
  | previous, c :: rest =>
    (c = ':' && separated rest) || (c = '#' && separates previous) || holdsIndicator c rest

/-- Whether the text could be taken for something other than a scalar. -/
def looksStructural (cs : List Char) : Bool :=
  "---".toList.isPrefixOf cs || "...".toList.isPrefixOf cs || startsWithIndicator cs ||
    match cs with
    | [] => false
    | c :: rest => holdsIndicator c rest

/-- Whether some character is followed by another one in the given way. -/
def anyNeighbours (test : Char → Char → Bool) : List Char → Bool
  | a :: b :: rest => test a b || anyNeighbours test (b :: rest)
  | _ => false

/-- Whether a character stands at one of the ends. -/
def atEnds (test : Char → Bool) (cs : List Char) : Bool :=
  cs.head?.any test || cs.getLast?.any test

/-- Whether a text can be written without quotes. -/
def canBePlain (cs : List Char) : Bool :=
  !looksStructural cs && !cs.any isSpecial && !cs.any isBreak && !atEnds (· = ' ') cs

/-- Whether a text can stand between single quotes: a space beside a line break is not kept
there. -/
def canBeSingle (cs : List Char) : Bool :=
  !cs.any isSpecial &&
    !anyNeighbours (fun a b => (a = ' ' && isBreak b) || (isBreak a && b = ' ')) cs

/-- Whether a text can be written as a block. -/
def canBeBlock (cs : List Char) : Bool := !cs.any isSpecial && cs.getLast? ≠ some ' '

/-- The style of a text. A key beside its value is never empty. -/
def styleOf (isKey : Bool) (cs : List Char) : Style :=
  if cs.contains '\n' then if canBeBlock cs then .block else .double
  else if canBePlain cs && !(isKey && cs.isEmpty) then .plain
  else if cs.contains '\x27' then .double
  else if canBeSingle cs then .single
  else .double

/-- Whether a key can stand beside its value: it is short and has no lines. -/
def isSimpleKey (cs : List Char) : Bool := cs.length + 5 < 128 && !cs.any isBreak

end TensorGraph.Yaml
