/-!
Classes of characters in YAML text.
-/

namespace TensorGraph.Yaml

/-- Characters that end a line. -/
def isBreak (c : Char) : Bool :=
  c = '\n' || c = '\x85' || c = '\u2028' || c = '\u2029'

/-- Characters that start a line break while reading. -/
def startsBreak (c : Char) : Bool := c = '\r' || isBreak c

/-- Characters that end a comment or a line of a block text. -/
def endsLine (c : Char) : Bool := c = '\n' || c = '\r' || c = '\x85'

/-- Characters that end a word. -/
def endsWord (c : Char) : Bool := c = ' ' || c = '\t' || endsLine c

/-- Whether a word ends before this text. -/
def atWordEnd : List Char → Bool
  | [] => true
  | c :: _ => endsWord c

/-- Whether a line ends before this text. -/
def atLineEnd : List Char → Bool
  | [] => true
  | c :: _ => endsLine c

/-- Characters that may stand in YAML text. -/
def isAllowed (c : Char) : Bool :=
  let n := c.toNat
  n == 9 || n == 10 || n == 13 || (0x20 ≤ n && n ≤ 0x7e) || n == 0x85 ||
    (0xa0 ≤ n && n ≤ 0xd7ff) || (0xe000 ≤ n && n ≤ 0xfffd) || 0x10000 ≤ n

/-- The mark that may stand before a text. -/
def byteOrderMark : Char := '\ufeff'

end TensorGraph.Yaml
