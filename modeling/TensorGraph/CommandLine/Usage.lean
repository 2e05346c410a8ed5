import TensorGraph.CommandLine.Options

/-!
What the command line tells about itself, laid out for a width of eighty columns.
-/

namespace TensorGraph.CommandLine

def programName : String := "mlcore-graph"

/-- Texts between curly brackets. -/
def choiceText (choices : List String) : String :=
  "\x7b" ++ String.intercalate "," choices ++ "\x7d"

def formatChoices : String := choiceText (OutputFormat.all.map OutputFormat.name)

def directionChoices : String := choiceText drawingDirections

/-- The lines behind the first one start below its first argument. -/
def usageIndent : String :=
  String.ofList (List.replicate ("usage: " ++ programName ++ " ").length ' ')

def usageText : String :=
  "usage: " ++ programName ++ " [-h] [--format " ++ formatChoices ++ "]\n" ++
    usageIndent ++ "[--rankdir " ++ directionChoices ++ "] [--validate | --no-validate]\n" ++
    usageIndent ++ "[--debug | --no-debug]\n" ++
    usageIndent ++ "file\n"

/-- The column where explanations start. -/
def helpColumn : Nat := 24

/-- An argument and its explanation, which goes to a line of its own where the argument leaves no
room. -/
def helpEntry (argument explanation : String) : String :=
  let head := "  " ++ argument
  let space (n : Nat) : String := String.ofList (List.replicate n ' ')
  if head.length + 2 ≤ helpColumn then
    head ++ space (helpColumn - head.length) ++ explanation ++ "\n"
  else head ++ "\n" ++ space helpColumn ++ explanation ++ "\n"

/-- All that there is to say about the arguments. -/
def helpText : String :=
  usageText ++ "\nInspect and convert graph documents\n\npositional arguments:\n" ++
    helpEntry "file" "graph document, YAML or JSON" ++ "\noptions:\n" ++
    helpEntry "-h, --help" "show this help message and exit" ++
    helpEntry ("--format " ++ formatChoices) "output format (default: summary)" ++
    helpEntry ("--rankdir " ++ directionChoices) "DOT layout (default: TB)" ++
    helpEntry "--validate, --no-validate" "validate graph structure (default: False)" ++
    helpEntry "--debug, --no-debug" "debug mode (default: None)"

/-- What is told when the arguments are wrong. -/
def complaint (e : UsageError) : String :=
  usageText ++ programName ++ ": error: " ++ e.message ++ "\n"

end TensorGraph.CommandLine
