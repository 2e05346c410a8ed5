import TensorGraph.Error

/-!
Element types by name, and the one that is used where none is given.
-/

namespace TensorGraph.ElementType

def parse (name : String) : Except Error ElementType :=
  orError (parse? name) (.tensor (.unknownElementType name))

/-- The type used where none is given: the configured one, if a name is configured, else
`float32`. -/
def default (setting : Option String) : Except Error ElementType :=
  match setting with
  | none => .ok .float32
  | some name =>
    if name = "" then .ok .float32 else orError (parse? name) (.defaultElementType name)

/-- A canonical name is parsed as its type. -/
theorem parse_name (t : ElementType) : parse t.name = .ok t := by cases t <;> rfl

end TensorGraph.ElementType
