import TensorGraph.Operation.Basic
import TensorGraph.Shape.MatrixProduct
import TensorGraph.Shape.Reshape
import TensorGraph.Shape.Rewrite
import TensorGraph.Shape.Window

/-!
The shape of the result of an operation, from the shapes of its inputs and its attributes.
-/

namespace TensorGraph.Operation

/-- Whether a kind cannot do without a second input. -/
def needsTwo (kind : OperationKind) : Bool :=
  match kind.category with
  | .binary => true
  | .comparison => true
  | .logical => kind ≠ .not
  | _ =>
    [OperationKind.matmul, .batchMatmul, .dot, .outer, .conv2d, .linear, .embedding].contains kind

/-- The inputs, provided that none is missing; positions are counted from the given one. -/
def presentFrom (kind : OperationKind) :
    Nat → List (Option Reference) → Except Error (List Reference)
  | _, [] => .ok []
  | position, none :: _ => .error (.operation (.missingInput position kind))
  | position, some r :: rest => do return r :: (← presentFrom kind (position + 1) rest)

/-- The inputs, provided that none is missing. -/
def presentInputs (op : Operation) : Except Error (List Reference) :=
  presentFrom op.kind 0 op.inputs

theorem isSome_of_presentFrom {kind : OperationKind} {position : Nat}
    {inputs : List (Option Reference)} {given : List Reference}
    (present : presentFrom kind position inputs = .ok given) :
    ∀ input ∈ inputs, input.isSome = true := by
  induction inputs generalizing position given with
  | nil => exact fun _ member => nomatch member
  | cons first rest ih =>
      cases first with
      | none => cases present
      | some r =>
          obtain ⟨_, rest_present, _⟩ := bind_eq_ok_iff.1 present
          intro input member
          rcases List.mem_cons.1 member with rfl | later
          · rfl
          · exact ih rest_present input later

/-- A reduction along one axis, or along all where the axis lies below zero. -/
def reduced (kind : OperationKind) (attributes : Attributes) (s : Shape) : Except Error Shape :=
  let axis := attributes.getInt "axis" (-1)
  let keep := attributes.getBool "keepdims" false
  if axis < 0 then .ok (if keep then ⟨List.replicate s.rank 1⟩ else .scalar)
  else if (s.rank : Int) ≤ axis then .error (.shape (.reductionAxis axis s kind))
  else .ok (if keep then ⟨s.dims.set axis.toNat 1⟩ else ⟨s.dims.eraseIdx axis.toNat⟩)

/-- Shapes placed one after the other along an axis; along all others they agree. -/
def concatenated (index : Int) (first : Shape) (rest : List Shape) : Except Error Shape := do
  let k ← first.axis index
  rest.forM fun s =>
    if s.rank = first.rank ∧ s.dims.eraseIdx k = first.dims.eraseIdx k then
      Except.ok (ε := Error) ()
    else .error (.shape (.catMismatch k first s))
  let extents := (first :: rest).map (·.dimAt k)
  return ⟨first.dims.set k (extents.foldr (· + ·) 0)⟩

/-- Equal shapes placed side by side along a new axis. -/
def stacked (index : Int) (first : Shape) (rest : List Shape) : Except Error Shape := do
  rest.forM fun s =>
    if s = first then Except.ok (ε := Error) () else .error (.shape (.stackMismatch first s))
  let k ← first.axisAmong (first.rank + 1) index
  return ⟨first.dims.insertIdx k (rest.length + 1)⟩

/-- An attribute that is an integer or a list of integers. -/
def intOrPair (kind : OperationKind) (attributes : Attributes) (key : String) (default : Value) :
    Except Error Value :=
  match attributes.get? key with
  | none => .ok default
  | some (.int n) => .ok (.int n)
  | some (.ints ns) => .ok (.tuple (ns.map .int))
  | some a => .error (.operation (.badPair key kind a.toValue))

/-- A window that slides over the last two axes, with the steps that the attributes give. -/
def windowed (kind : OperationKind) (attributes : Attributes) (input : Shape)
    (kernel step : Value) : Except Error (Nat × Nat) := do
  let stride ← intOrPair kind attributes "stride" step
  let padding ← intOrPair kind attributes "padding" (.int 0)
  let dilation ← intOrPair kind attributes "dilation" (.int 1)
  input.slidingWindow kernel stride padding dilation

/-- The extents without the last ones. -/
def leading (s : Shape) (count : Nat) : List Nat := s.dims.take (s.rank - count)

/-- A convolution of images with a bank of filters. -/
def convolved (kind : OperationKind) (attributes : Attributes) (input weight : Shape) :
    Except Error Shape :=
  match weight.dims with
  | [filters, _, height, width] =>
    if input.rank < 3 then .error (.shape (.conv2dOperands input weight))
    else do
      let (rows, columns) ← windowed kind attributes input
        (.tuple [.int height, .int width]) (.int 1)
      return ⟨leading input 3 ++ [filters, rows, columns]⟩
  | _ => .error (.shape (.conv2dOperands input weight))

/-- Pooling; the windows do not overlap unless a stride is given. -/
def pooled (kind : OperationKind) (attributes : Attributes) (input : Shape) :
    Except Error Shape := do
  if !attributes.contains "kernel_size" then .error (.operation (.missingKernel kind))
  let kernel ← intOrPair kind attributes "kernel_size" (.int 1)
  let (rows, columns) ← windowed kind attributes input kernel kernel
  return ⟨leading input 2 ++ [rows, columns]⟩

/-- Pooling to a size that is given. -/
def adaptivelyPooled (kind : OperationKind) (attributes : Attributes) (input : Shape) :
    Except Error Shape := do
  if input.rank < 2 then .error (.shape (.adaptiveRank input))
  let size ← intOrPair kind attributes "output_size" (.int 1)
  let (rows, columns) ← Shape.pairOf size "output_size"
  Shape.ofValues ((leading input 2).map (fun d => .int d) ++ [rows, columns])

/-- A linear layer: the last axis is replaced by the outputs of the weight. -/
def linearShape (input weight : Shape) : Except Error Shape :=
  match input.dims.reverse, weight.dims with
  | inner :: outer, [outputs, inputs] =>
    if inputs = inner then .ok ⟨outer.reverse ++ [outputs]⟩
    else .error (.shape (.linearOperands input weight))
  | _, _ => .error (.shape (.linearOperands input weight))

/-- A table look-up: each index is replaced by a row of the weight. -/
def embeddedShape (indices weight : Shape) : Except Error Shape :=
  match weight.dims with
  | [_, width] => .ok ⟨indices.dims ++ [width]⟩
  | _ => .error (.shape (.embeddingWeight weight))

/-- The result of the kinds that only rearrange elements. -/
def rearranged (kind : OperationKind) (attributes : Attributes) (first : Shape)
    (rest : List Shape) : Except Error Shape :=
  match kind with
  | .reshape => first.reshape (attributes.getInts "shape" [])
  | .view => first.reshape (attributes.getInts "shape" [])
  | .flatten => first.flatten (attributes.getInt "start_dim" 0) (attributes.getInt "end_dim" (-1))
  | .squeeze =>
    if attributes.contains "dim" then first.squeeze (attributes.getInt "dim" 0)
    else .ok first.squeezeAll
  | .unsqueeze => first.unsqueeze (attributes.getInt "dim" 0)
  | .permute => first.permute (attributes.getInts "dims" [])
  | .cat => concatenated (attributes.getInt "dim" 0) first rest
  | .stack => stacked (attributes.getInt "dim" 0) first rest
  | _ => .ok first

/-- The result for inputs of which the first is given on its own. -/
def shapeFrom (kind : OperationKind) (attributes : Attributes) (first : Shape)
    (rest : List Shape) : Except Error Shape :=
  let second := rest.headD .scalar
  match kind.category with
  | .binary => Shape.broadcast first second
  | .comparison => Shape.broadcast first second
  | .logical => if kind = .not then .ok first else Shape.broadcast first second
  | .reduction => reduced kind attributes first
  | .loss => .ok (if attributes.getText "reduction" "mean" = "none" then first else .scalar)
  | .memory => rearranged kind attributes first rest
  | _ =>
    match kind with
    | .matmul => Shape.matrixProduct first second
    | .batchMatmul => Shape.matrixProduct first second
    | .transpose =>
      match attributes.getInts "perm" [] with
      | [] => first.transpose
      | permutation => first.permute permutation
    | .dot => .ok .scalar
    | .outer => .ok ⟨[first.size, second.size]⟩
    | .conv2d => convolved kind attributes first second
    | .maxPool2d => pooled kind attributes first
    | .avgPool2d => pooled kind attributes first
    | .adaptiveAvgPool2d => adaptivelyPooled kind attributes first
    | .linear => linearShape first second
    | .embedding => embeddedShape first second
    | _ => .ok first

/-- The shape of the result. There has to be an input, and a second one where the kind cannot do
without it. -/
def resultShape (op : Operation) : Except Error Shape :=
  if op.inputs.isEmpty then .error (.operation (.noInputs op.kind))
  else if needsTwo op.kind ∧ op.inputs.length < 2 then
    .error (.operation (.tooFewInputs op.kind op.inputs.length))
  else do
    match (← op.presentInputs).map Reference.shape with
    | [] => .error (.operation (.noInputs op.kind))
    | first :: rest => shapeFrom op.kind op.attributes first rest

/-- A result has a shape only where there are inputs and none is missing. -/
theorem exists_presentInputs {op : Operation} {s : Shape} (made : op.resultShape = .ok s) :
    op.inputs.isEmpty = false ∧ ∃ first rest, op.presentInputs = .ok (first :: rest) := by
  rw [resultShape] at made
  split at made
  · cases made
  · next given =>
    split at made
    · cases made
    · obtain ⟨inputs, present, made⟩ := bind_eq_ok_iff.1 made
      cases inputs with
      | nil => cases made
      | cons first rest => exact ⟨by simpa using given, first, rest, present⟩

end TensorGraph.Operation
