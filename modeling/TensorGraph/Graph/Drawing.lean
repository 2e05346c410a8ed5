import TensorGraph.Graph.Basic

/-!
Drawings: a graph as a description for the Graphviz tools, with one statement for each node and
for each edge.
-/

namespace TensorGraph.Graph

/-- Text inside double quotes. -/
def drawnText (s : String) : String :=
  String.ofList (s.toList.flatMap fun c =>
    if c = '\\' ∨ c = Text.doubleMark then ['\\', c] else [c])

def drawnName (s : String) : String := "\x22" ++ drawnText s ++ "\x22"

/-- The outline and the colour of a node. -/
def nodeStyle : NodeKind → String × String
  | .input => ("ellipse", "green")
  | .const => ("box", "gray")
  | .op => ("box", "blue")
  | .output => ("ellipse", "red")

/-- The first line of the label of a node. -/
def labelHead (n : Node) : String :=
  match n.kind with
  | .input => "INPUT"
  | .const => "CONST"
  | .output => "OUTPUT"
  | .op =>
    match n.operation with
    | some op => op.kind.name
    | none => "OP"

def nodeStatement (n : Node) : String :=
  let (outline, colour) := nodeStyle n.kind
  "  " ++ drawnName n.name ++ " [label=\x22" ++ labelHead n ++ "\\n" ++ drawnText n.name ++
    "\x22, shape=" ++ outline ++ ", color=" ++ colour ++ "];"

/-- The statements for the edges into a node. -/
def edgeStatements (n : Node) : List String :=
  n.inputs.map fun p => "  " ++ drawnName p ++ " -> " ++ drawnName n.name ++ ";"

/-- The name under which a graph is drawn; one without a name is drawn as `G`. -/
def drawnTitle (g : Graph) : Except Error String :=
  if g.name.isPresent then orError g.name.text? (.fault .noFields) else .ok "G"

/-- The drawing of a graph, in one of four directions. -/
def drawing (g : Graph) (direction : String) : Except Error String := do
  if !drawingDirections.contains direction then .error (.graph (.badDirection direction))
  let title ← g.drawnTitle
  let lines := ["digraph " ++ drawnName title ++ " \x7b", "  rankdir=" ++ direction ++ ";",
      "  node [shape=box];"] ++
    g.nodes.map nodeStatement ++ g.nodes.flatMap edgeStatements ++ ["\x7d"]
  return String.intercalate "\n" lines

end TensorGraph.Graph
