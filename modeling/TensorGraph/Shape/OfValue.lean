import TensorGraph.Error

/-!
Shapes from loose values. A single value that can be listed gives its items as extents; every
extent has to be an integer that is not negative.
-/

namespace TensorGraph.Shape

/-- The shape with these extents. The first value that is none decides the error. -/
def ofValues (values : List Value) : Except Error Shape := do
  let dims ← values.mapM fun value =>
    match value with
    | .int n =>
      if n < 0 then .error (.shape (.negative values)) else Except.ok (ε := Error) n.toNat
    | _ => .error (.shape (.notIntegers values))
  return ⟨dims⟩

/-- Extents that are natural numbers make a shape. -/
theorem ofValues_ofNats (dims : List Nat) :
    ofValues ((dims.map Int.ofNat).map .int) = .ok ⟨dims⟩ := by
  rw [ofValues, List.map_map, mapM_map_ok]
  · rfl
  · intro n
    simp

/-- What a list of arguments stands for: a single one that is no integer stands for its items. -/
def spread : List Value → Except Error (List Value)
  | [.int n] => .ok [.int n]
  | [.bool b] => .ok [.bool b]
  | [value] => orError value.items? (.fault .wrongForm)
  | values => .ok values

/-- The shape that arguments describe. -/
def ofArguments (values : List Value) : Except Error Shape := do ofValues (← spread values)

/-- The shape that one value describes. -/
def ofValue (value : Value) : Except Error Shape := ofArguments [value]

def ofInts (dims : List Int) : Except Error Shape := ofValues (dims.map .int)

end TensorGraph.Shape
