import TensorGraph.CommandLine.Argument
import TensorGraph.Error

/-!
The options of a run: which file is read, whether the graph is validated, and how it is written.
Arguments are taken from left to right; a later flag replaces an earlier one of its kind.
-/

namespace TensorGraph.CommandLine

/-- How a graph is written. -/
inductive OutputFormat where
  | summary
  | json
  | yaml
  | dot
deriving DecidableEq, Repr

namespace OutputFormat

/-- All forms, in the order the usage lists them. -/
def all : List OutputFormat := [.summary, .json, .yaml, .dot]

/-- The name of a form on the command line. -/
def name : OutputFormat → String
  | .summary => "summary"
  | .json => "json"
  | .yaml => "yaml"
  | .dot => "dot"

def ofName? (s : String) : Option OutputFormat := all.find? (·.name = s)

end OutputFormat

/-- What a command line asks for. -/
structure Options where
  file : String
  format : OutputFormat
  direction : String
  validate : Bool
  debug : Bool
deriving Repr

/-- Why the arguments start no run. -/
inductive Stop where
  | help
  | usage (e : UsageError)
deriving Repr

/-- What has been seen of the arguments. -/
structure Progress where
  file : Option String := none
  format : OutputFormat := .summary
  direction : String := "TB"
  validate : Bool := false
  debug : Bool := false
  /-- The arguments without a use. -/
  leftOver : List String := []

namespace Progress

def setValue (p : Progress) (flag : Flag) (value : String) : Except Stop Progress :=
  match flag with
  | .format =>
    match OutputFormat.ofName? value with
    | some format => .ok { p with format }
    | none => .error (.usage (.badChoice flag value (OutputFormat.all.map OutputFormat.name)))
  | .direction =>
    if drawingDirections.contains value then .ok { p with direction := value }
    else .error (.usage (.badChoice flag value drawingDirections))
  | _ => .ok p

/-- Takes a flag that is a switch. -/
def turn (p : Progress) (spelling : Spelling) : Except Stop Progress :=
  match spelling.flag with
  | .help => .error .help
  | .validate => .ok { p with validate := spelling.on }
  | .debug => .ok { p with debug := spelling.on }
  | _ => .ok p

/-- Letters behind a single dash are flags of their own; only the one for help exists. -/
def helpLetters : List Char → Stop
  | [] => .help
  | 'h' :: rest => helpLetters rest
  | rest => .usage (.unwantedValue .help (String.ofList rest))

/-- Refuses a value that is attached to a switch. -/
def refuseValue (spelling : Spelling) (value : String) : Stop :=
  if spelling.text.startsWith "--" || value = "" then .usage (.unwantedValue spelling.flag value)
  else helpLetters value.toList

def leave (p : Progress) (argument : String) : Progress :=
  { p with leftOver := p.leftOver ++ [argument] }

/-- Takes the arguments from left to right. The first plain one is the file; an end mark next to
it has no use of its own. -/
def take (p : Progress) : List Argument → Except Stop Progress
  | [] => .ok p
  | .unknown s :: rest => (p.leave s).take rest
  | .flag spelling (some value) :: rest =>
    if spelling.flag.takesValue then do (← p.setValue spelling.flag value).take rest
    else .error (refuseValue spelling value)
  | .flag spelling none :: rest =>
    if spelling.flag.takesValue then
      match rest with
      | .plain value :: rest => do (← p.setValue spelling.flag value).take rest
      | _ => .error (.usage (.missingValue spelling.flag))
    else do (← p.turn spelling).take rest
  | .endMark :: rest =>
    match p.file, rest with
    | none, .plain file :: rest => { p with file := some file }.take rest
    | _, rest => (p.leave "--").take rest
  | .plain s :: rest =>
    match p.file, rest with
    | none, .endMark :: rest => { p with file := some s }.take rest
    | none, rest => { p with file := some s }.take rest
    | some _, rest => (p.leave s).take rest

/-- The options, once every argument has been taken. -/
def finish (p : Progress) : Except Stop Options :=
  match p.file with
  | none => .error (.usage .missingFile)
  | some file =>
    if p.leftOver.isEmpty then
      .ok ⟨file, p.format, p.direction, p.validate, p.debug⟩
    else .error (.usage (.leftOver p.leftOver))

end Progress

/-- The options that arguments stand for. -/
def Options.parse (arguments : List String) : Except Stop Options :=
  match Argument.ofTexts arguments with
  | .error e => .error (.usage e)
  | .ok taken => do ((← Progress.take {} taken).finish)

end TensorGraph.CommandLine
