import TensorGraph.Proofs.Operation.Joining
import TensorGraph.Proofs.Shape.Reshaping

/-!
Numbers of elements. Some operations compute nothing and only give elements other places. What their
attributes name, counted from either end, cannot lose an element or make up one: wherever a shape is
inferred at all, it has room for the elements of the inputs and for no more.
-/

namespace TensorGraph.Operation

variable {kind : OperationKind} {attributes : Attributes} {op : Operation} {first r : Shape}
  {rest shapes widened : List Shape} {index : Int}

/-- The kinds that give the elements of their first input other places. -/
def rearranging : List OperationKind :=
  [.reshape, .view, .flatten, .squeeze, .unsqueeze, .permute, .transpose]

/-- The kinds that put the elements of all inputs together. -/
def joining : List OperationKind := [.cat, .stack]

/-! ### One input -/

/-- A squeeze takes out the axis that is named, or else all that have one place only. -/
theorem size_of_squeezed (made : shapeFrom .squeeze attributes first rest = .ok r) :
    r.size = first.size := by
  simp only [shapeFrom, OperationKind.category, rearranged] at made
  split at made
  · exact Shape.size_squeeze made
  · cases made
    exact first.size_squeezeAll

/-- An order of the axes that is empty is none: the last two axes are exchanged then. -/
theorem size_of_transposed (made : shapeFrom .transpose attributes first rest = .ok r) :
    r.size = first.size := by
  simp only [shapeFrom, OperationKind.category] at made
  split at made
  · exact Shape.size_transpose made
  · exact Shape.size_permute made

theorem size_of_rearranging (moves : kind ∈ rearranging)
    (made : shapeFrom kind attributes first rest = .ok r) : r.size = first.size := by
  simp only [rearranging, List.mem_cons, List.not_mem_nil, or_false] at moves
  obtain rfl | rfl | rfl | rfl | rfl | rfl | rfl := moves
  · exact Shape.size_reshape made
  · exact Shape.size_reshape made
  · exact Shape.size_flatten made
  · exact size_of_squeezed made
  · exact Shape.size_unsqueeze made
  · exact Shape.size_permute made
  · exact size_of_transposed made

/-! ### All inputs -/

theorem size_concatenated (made : concatenated index first rest = .ok r) :
    r.size = ((first :: rest).map Shape.size).sum := by
  obtain ⟨k, named, joins⟩ := concatenated_eq_ok_iff.1 made
  exact joins.size_eq (Shape.axis_eq_ok_iff.1 named).1

theorem map_size_of_unsqueezed (read : shapes.mapM (·.unsqueeze index) = .ok widened) :
    widened.map Shape.size = shapes.map Shape.size := by
  rw [mapM_eq_ok_iff] at read
  induction shapes generalizing widened with
  | nil => rw [List.map_eq_nil_iff.1 read.symm]
  | cons s shapes ih =>
    obtain ⟨w, later, rfl, made, read⟩ := List.map_eq_cons_iff.1 read.symm
    rw [List.map_cons, List.map_cons, Shape.size_unsqueeze made.symm, ih read.symm]

/-- The parts of a stack are counted with the axis that each of them is given, and are none the
larger for it. -/
theorem size_stacked (made : stacked index first rest = .ok r) :
    r.size = ((first :: rest).map Shape.size).sum := by
  obtain ⟨widened, read, k, named, joins⟩ := stacked_eq_ok_iff_joins.1 made
  rw [joins.size_eq (Shape.axis_eq_ok_iff.1 named).1, map_size_of_unsqueezed read]

theorem size_of_joining (joins : kind ∈ joining)
    (made : shapeFrom kind attributes first rest = .ok r) :
    r.size = ((first :: rest).map Shape.size).sum := by
  simp only [joining, List.mem_cons, List.not_mem_nil, or_false] at joins
  obtain rfl | rfl := joins
  · exact size_concatenated made
  · exact size_stacked made

theorem needsTwo_of_moving (moves : kind ∈ rearranging ++ joining) : needsTwo kind = false := by
  revert kind
  decide

/-- **No element is lost and none is made up.** Wherever the shape of a result is inferred, the
inputs are all there. If the operation rearranges elements, the result has as many as the first
input; if it joins its inputs, the result has as many as all of them together, whichever axis is
named and however many inputs there are, also where some are empty. -/
theorem resultShape_conserves_elements (made : op.resultShape = .ok r) :
    ∃ g gs, op.inputs = List.map some (g :: gs) ∧
      (op.kind ∈ rearranging → r.size = g.shape.size) ∧
      (op.kind ∈ joining → r.size = ((g :: gs).map (·.shape.size)).sum) := by
  obtain ⟨given, inputs_eq, some_input, inferred⟩ := exists_given_of_resultShape made
  obtain ⟨g, gs, rfl⟩ := List.exists_cons_of_ne_nil some_input
  refine ⟨g, gs, inputs_eq, fun moves => ?_, fun joins => ?_⟩
  · have single := needsTwo_of_moving (List.mem_append_left joining moves)
    rw [List.map_cons, shapeOn_cons single] at inferred
    exact size_of_rearranging moves inferred
  · have single := needsTwo_of_moving (List.mem_append_right rearranging joins)
    rw [List.map_cons, shapeOn_cons single] at inferred
    rw [size_of_joining joins inferred, ← List.map_cons (f := Reference.shape), List.map_map]
    rfl

/-- Three inputs, of which the second is empty. -/
def threeInputs : List Reference :=
  [.empty ⟨[2, 4, 3]⟩ .float32, .empty ⟨[2, 0, 3]⟩ .float32, .empty ⟨[2, 1, 3]⟩ .float32]

/-- The inputs are joined along the last axis but one. -/
def joinedThree : Operation where
  kind := .cat
  attributes := OrderedMap.empty.put "dim" (.int (-2))
  inputs := threeInputs.map some

theorem resultShape_conserves_elements_joinedThree :
    joinedThree.resultShape = .ok ⟨[2, 5, 3]⟩ ∧ Shape.size ⟨[2, 5, 3]⟩ = 24 + 0 + 6 := by
  have made : joinedThree.resultShape = .ok ⟨[2, 5, 3]⟩ := rfl
  obtain ⟨g, gs, inputs_eq, _, together⟩ := resultShape_conserves_elements made
  have given_eq : threeInputs = g :: gs :=
    List.map_injective_iff.2 (Option.some_injective _) inputs_eq
  rw [← given_eq] at together
  exact ⟨made, together (by decide)⟩

end TensorGraph.Operation
