import TensorGraph.ElementType.Default
import TensorGraph.Operation.ResultShape

/-!
The element type of the result of an operation, and shape and element type together.
-/

namespace TensorGraph.Operation

/-- The element type of a result, from the types of the inputs. -/
def typeFrom (kind : OperationKind) (attributes : Attributes) (first : ElementType)
    (rest : List ElementType) : ElementType :=
  match kind.category, rest with
  | .comparison, _ => .bool
  | .logical, _ => .bool
  | .binary, second :: _ => ElementType.promote first second
  | _, _ =>
    match kind with
    | .argmax => .int64
    | .argmin => .int64
    | .all => .bool
    | .any => .bool
    | .cast => (ElementType.parse? (attributes.getText "dtype" "")).getD first
    | _ => first

/-- The element type of the result. Without inputs the hint of the operation decides, or the
type that is used where none is given. -/
def resultType (setting : Option String) (op : Operation) : Except Error ElementType :=
  if op.inputs.isEmpty then
    match op.elementType with
    | some t => .ok t
    | none => ElementType.default setting
  else do
    match (← op.presentInputs).map Reference.elementType with
    | [] => ElementType.default setting
    | first :: rest => return typeFrom op.kind op.attributes first rest

/-- The result as a reference without content. -/
def result (setting : Option String) (op : Operation) : Except Error Reference := do
  return .empty (← op.resultShape) (← op.resultType setting)

/-- There is a result only where no input is missing. -/
theorem isSome_of_result {setting : Option String} {op : Operation} {r : Reference}
    (made : op.result setting = .ok r) : ∀ input ∈ op.inputs, input.isSome = true := by
  obtain ⟨_, shaped, _⟩ := bind_eq_ok_iff.1 made
  obtain ⟨_, _, _, present⟩ := exists_presentInputs shaped
  exact isSome_of_presentFrom present

end TensorGraph.Operation
