import TensorGraph.Yaml.Chars

/-!
Places in a text that is read: what is left, and where that stands.
-/

namespace TensorGraph.Yaml

/-- What is left of a text, with the number of characters before it and its line and column. -/
structure Cursor where
  rest : List Char
  index : Nat := 0
  line : Nat := 0
  column : Nat := 0
deriving Repr

namespace Cursor

/-- The place behind one more character. -/
def next (c : Cursor) : Cursor :=
  match c.rest with
  | [] => c
  | ch :: rest =>
    if isBreak ch || (ch = '\r' && rest.head? ≠ some '\n') then
      ⟨rest, c.index + 1, c.line + 1, 0⟩
    else ⟨rest, c.index + 1, c.line, if ch = byteOrderMark then c.column else c.column + 1⟩

/-- The place behind this many characters. -/
def skip (c : Cursor) (n : Nat) : Cursor := Nat.repeat next n c

/-- The characters from here on that pass a test. -/
def taken (c : Cursor) (test : Char → Bool) : List Char := c.rest.takeWhile test

/-- The place behind the characters that pass a test. -/
def skipWhile (c : Cursor) (test : Char → Bool) : Cursor := c.skip (c.taken test).length

/-- The line break at a place, if there is one, and the place behind it. Most breaks read as the
same character. -/
def lineBreak (c : Cursor) : List Char × Cursor :=
  match c.rest with
  | '\r' :: '\n' :: _ => (['\n'], c.skip 2)
  | ch :: _ =>
    if endsLine ch then (['\n'], c.next)
    else if isBreak ch then ([ch], c.next)
    else ([], c)
  | [] => ([], c)

/-- Whether three marks stand here, and nothing directly behind them. -/
def atTriple (c : Cursor) (mark : Char) : Bool :=
  match c.rest with
  | x :: y :: z :: rest => x = mark && y = mark && z = mark && atWordEnd rest
  | _ => false

/-- Whether the mark of the start or the end of a document stands here. -/
def atDocumentMark (c : Cursor) : Bool := c.atTriple '-' || c.atTriple '.'

def lineBreaks : Nat → Cursor → List Char × Cursor
  | 0, c => ([], c)
  | fuel + 1, c =>
    match c.lineBreak with
    | ([], _) => ([], c)
    | (b, c) =>
      let (more, c) := lineBreaks fuel c
      (b ++ more, c)

/-- The place of the next token: behind spaces, line breaks and comments. Also says whether a line
break was passed. -/
def toToken : Nat → Bool → Cursor → Bool × Cursor
  | 0, crossed, c => (crossed, c)
  | fuel + 1, crossed, c =>
    let c := c.skipWhile (· = ' ')
    if c.rest.head? = some '#' then
      let c := (c.skipWhile fun ch => !endsLine ch).next
      toToken fuel true (lineBreaks c.rest.length c).2
    else
      match c.lineBreak with
      | ([], _) => (crossed, c)
      | (_, c) =>
        let blank (ch : Char) : Bool := startsBreak ch || ch = ' ' || ch = '\t'
        toToken fuel true (if c.rest.head? = some '\n' then c.skipWhile blank else c)

end Cursor

end TensorGraph.Yaml
