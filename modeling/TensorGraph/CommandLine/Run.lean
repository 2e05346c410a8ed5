import TensorGraph.CommandLine.Path
import TensorGraph.CommandLine.Usage
import TensorGraph.Document.Form
import TensorGraph.Graph.Check
import TensorGraph.Graph.Drawing
import TensorGraph.Graph.Render

/-!
Runs of the program: a graph is loaded from a file, validated if that is asked for, and written in
one of the formats. What happens on the way is logged.
-/

namespace TensorGraph.CommandLine

/-- The parts of the program that log. -/
inductive LogSource where
  | program
  | graph
  | document
deriving DecidableEq, Repr

def LogSource.name : LogSource → String
  | .program => "mlcore.cli.graph_tool"
  | .graph => "mlcore.graphs.ir.graph"
  | .document => "mlcore.graphs.ir.document"

/-- What is logged; a detail is told only in debug mode. -/
structure LogEntry where
  source : LogSource
  detail : Bool
  message : String
deriving Repr

def LogEntry.text (e : LogEntry) : String :=
  (if e.detail then "DEBUG:" else "INFO:") ++ e.source.name ++ ":" ++ e.message ++ "\n"

/-- The end of a run, and all that it has written. -/
structure Outcome where
  /-- The exit code, or the error that ended the run. -/
  result : Except Error Nat
  output : String := ""
  messages : String := ""

/-- Text in which every line break is a single character. -/
def withPlainBreaks : List Char → List Char
  | '\r' :: '\n' :: rest => '\n' :: withPlainBreaks rest
  | '\r' :: rest => '\n' :: withPlainBreaks rest
  | c :: rest => c :: withPlainBreaks rest
  | [] => []

/-- The name of a graph and the number of its nodes. -/
def graphSize (g : Graph) : String :=
  g.name.shown ++ ", " ++ toString g.nodeCount ++ " nodes"

/-- The document that the text of a file holds. -/
def readDocument (path : Path) (text : String) : Except Error Value :=
  let text := String.ofList (withPlainBreaks text.toList)
  if path.isYaml then Document.readYaml text else Json.parse text

/-- The nodes that loading a document adds, up to the first that fails. -/
def loadedNodes (doc : Value) : List Node :=
  match Document.opened doc with
  | .ok (start, records) => Document.addedNodes start records
  | .error _ => []

/-- Loads the graph of a document; the log names each node that is added. -/
def loadDocument (doc : Value) : Except Error Graph × List LogEntry :=
  let result := Document.toGraph doc
  let added := (loadedNodes doc).map fun n =>
    ⟨.graph, true, "added node " ++ n.name ++ ": " ++ n.text⟩
  let imported := match result with
    | .ok g => [⟨.document, true, "imported graph " ++ graphSize g⟩]
    | .error _ => []
  (result, added ++ imported)

/-- Loads a graph from the text of a file. -/
def loadGraph (path : Path) (text : String) : Except Error Graph × List LogEntry :=
  let language := if path.isYaml then "YAML" else "JSON"
  let opening : LogEntry :=
    ⟨.program, true, "loading " ++ language ++ " graph document: " ++ path.text⟩
  match readDocument path text with
  | .error e => (.error e, [opening])
  | .ok doc =>
    let (result, entries) := loadDocument doc
    match result with
    | .error e => (.error e, opening :: entries)
    | .ok g => (.ok g, opening :: entries ++ [⟨.program, false, "loaded " ++ g.summary⟩])

def formatGraph (o : Options) (g : Graph) : Except Error String :=
  match o.format with
  | .summary => .ok (g.summary ++ "\n" ++ g.text)
  | .json => Document.toJson g Document.defaultIndent
  | .yaml => Document.toYaml g
  | .dot => g.drawing o.direction

/-- What writing a graph logs: a document that is made is told. -/
def formatLog (o : Options) (g : Graph) : List LogEntry :=
  if o.format = .json || o.format = .yaml then
    match Document.ofGraph g with
    | .ok _ => [⟨.document, true, "exported graph " ++ graphSize g⟩]
    | .error _ => []
  else []

/-- The entries of a log that are told, as text. -/
def Options.logText (o : Options) (entries : List LogEntry) : String :=
  String.join ((entries.filter fun e => o.debug || !e.detail).map LogEntry.text)

/-- What is wrong with a graph, if that is asked for. -/
def Options.violations (o : Options) (g : Graph) : List String :=
  if o.validate then g.violations else []

/-- Writes a graph that has been loaded. -/
def writeGraph (o : Options) (g : Graph) (log : String) : Outcome :=
  match o.violations g with
  | [] =>
    let log := log ++ o.logText (formatLog o g)
    match formatGraph o g with
    | .ok text => ⟨.ok 0, text ++ "\n", log⟩
    | .error e => ⟨.error e, "", log⟩
  | violations =>
    ⟨.ok 1, "", log ++ String.join (violations.map fun v => "error: " ++ v ++ "\n")⟩

/-- A run on a file, given its text or the reason why it cannot be read. -/
def Options.run (o : Options) (content : Except Error String) : Outcome :=
  match content with
  | .error e => ⟨.error e, "", ""⟩
  | .ok text =>
    let (result, entries) := loadGraph (.parse o.file) text
    let log := o.logText entries
    match result with
    | .error e => ⟨.error e, "", log⟩
    | .ok g => writeGraph o g log

/-- The end of a run that does not start. -/
def Stop.outcome : Stop → Outcome
  | .help => ⟨.ok 0, helpText, ""⟩
  | .usage e => ⟨.ok 2, "", complaint e⟩

end TensorGraph.CommandLine
