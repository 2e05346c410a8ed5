/-!
Paths of files. Repeated separators and places that stand for themselves do not matter, and the
ending of the last name decides how a file is read.
-/

namespace TensorGraph.CommandLine

/-- A path: what stands before its first name, and its names. -/
structure Path where
  root : String
  names : List String
deriving DecidableEq, Repr

namespace Path

/-- The parts of a text between separators. -/
def parts (s : String) : List String := (s.toList.splitOnP (· == '/')).map String.ofList

/-- The path that a text stands for. Exactly two separators in front are not the same as one. -/
def parse (s : String) : Path where
  root :=
    if s.startsWith "///" then "/" else if s.startsWith "//" then "//"
    else if s.startsWith "/" then "/" else ""
  names := (parts s).filter fun name => name ≠ "" && name ≠ "."

/-- A path as text; the empty path is the current directory. -/
def text (p : Path) : String :=
  if p.root = "" && p.names.isEmpty then "." else p.root ++ String.intercalate "/" p.names

/-- Whether a path names a directory wherever it is followed: it only goes up, or nowhere. -/
def isDirectory (p : Path) : Bool := p.names.all (· = "..")

/-- The ending of the last name, with its point. A point that starts or ends the name starts no
ending. -/
def ending (p : Path) : String :=
  let name := (p.names.getLast?.getD "").toList
  let last := name.reverse.takeWhile (· ≠ '.')
  if last.length + 1 < name.length && !last.isEmpty then
    String.ofList ('.' :: last.reverse)
  else ""

/-- Whether the file holds YAML text; every other file holds JSON text. -/
def isYaml (p : Path) : Bool := p.ending = ".yaml" || p.ending = ".yml"

end Path

end TensorGraph.CommandLine
