/-!
Kinds of graph nodes.
-/

namespace TensorGraph

/-- What a node stands for in its graph. -/
inductive NodeKind where
  | input
  /-- A tensor that is known beforehand. -/
  | const
  | op
  | output
deriving DecidableEq, Repr, Inhabited

namespace NodeKind

def name : NodeKind → String
  | .input => "input"
  | .const => "const"
  | .op => "op"
  | .output => "output"

def ofName? : String → Option NodeKind
  | "input" => some .input
  | "const" => some .const
  | "op" => some .op
  | "output" => some .output
  | _ => none

theorem ofName?_name (k : NodeKind) : ofName? k.name = some k := by cases k <;> rfl

end NodeKind

end TensorGraph
