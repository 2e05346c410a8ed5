import TensorGraph.Text.Hex
import TensorGraph.Text.Printable

/-!
Quoted text: the form in which messages show a string. A string stands between single quotes,
or between double quotes where it holds a single quote and no double one; what cannot be printed
is written as an escape.
-/

namespace TensorGraph.Text

def singleMark : Char := '\x27'

def doubleMark : Char := '\x22'

/-- The mark that quoted text stands between. -/
def quoteMark (cs : List Char) : Char :=
  if cs.contains singleMark && !cs.contains doubleMark then doubleMark else singleMark

def escaped (mark c : Char) : List Char :=
  if c = '\\' ∨ c = mark then ['\\', c]
  else if c = '\n' then ['\\', 'n']
  else if c = '\t' then ['\\', 't']
  else if c = '\r' then ['\\', 'r']
  else if isPrintable c then [c]
  else if c.toNat < 0x100 then '\\' :: 'x' :: hexNumber 2 c.toNat
  else if c.toNat < 0x10000 then '\\' :: 'u' :: hexNumber 4 c.toNat
  else '\\' :: 'U' :: hexNumber 8 c.toNat

def quoted (s : String) : String :=
  let cs := s.toList
  let mark := quoteMark cs
  String.ofList (mark :: cs.flatMap (escaped mark) ++ [mark])

end TensorGraph.Text
