/-!
Letters in the other case, as far as a name made of ASCII letters can depend on it: a character
whose other case has a letter outside ASCII never completes such a name, so it may stay as it is.
-/

namespace TensorGraph.Text

/-- The lower case form of a character, exact wherever that form is ASCII. -/
def lowered (c : Char) : Char :=
  if c = '\u212a' then 'k' else c.toLower

/-- The upper case form of a character, exact wherever that form is ASCII. A ligature or a sharp
s has more than one upper case letter. -/
def raised (c : Char) : List Char :=
  match c.toNat with
  | 0xdf => ['S', 'S']
  | 0x131 => ['I']
  | 0x17f => ['S']
  | 0xfb00 => ['F', 'F']
  | 0xfb01 => ['F', 'I']
  | 0xfb02 => ['F', 'L']
  | 0xfb03 => ['F', 'F', 'I']
  | 0xfb04 => ['F', 'F', 'L']
  | 0xfb05 => ['S', 'T']
  | 0xfb06 => ['S', 'T']
  | _ => [c.toUpper]

end TensorGraph.Text
