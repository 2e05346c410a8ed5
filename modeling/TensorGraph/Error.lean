import TensorGraph.ElementType.Basic
import TensorGraph.Graph.NodeKind
import TensorGraph.Operation.Kind
import TensorGraph.Shape.Basic
import TensorGraph.Value

/-!
Errors are causes: each constructor names what went wrong and holds what the message shows. The
wording of all messages is here.
-/

namespace TensorGraph

open Text

/-- What is wrong with extents, axes or their use. -/
inductive ShapeError where
  | notIntegers (dims : List Value)
  | negative (dims : List Value)
  /-- An axis lies outside the shape. -/
  | axis (shape : Shape) (index : Int)
  | notBroadcastable (a b : Shape)
  | unreachable (source target : Shape)
  | otherResult (source target result : Shape)
  | severalInferred (target : List Value)
  | badTarget (dim : Value)
  | notDivisible (shape : Shape) (target : List Value)
  | sizeDiffers (shape target : Shape)
  | transposeRank (shape : Shape)
  | permutationLength (rank : Nat) (permutation : List Int)
  | permutationIndex (index : Int)
  | permutationRepeat (index : Int)
  | flattenOrder (start stop : Int)
  | productRank (a b : Shape)
  | productInner (m n : Nat) (a b : Shape)
  | notPair (name : String) (values : List Value)
  | windowRank (input : Shape)
  | windowStep (stride dilation : Value × Value)
  | windowTooLarge (kernel : Value × Value) (input : Shape)
  /-- A reduction axis lies outside the shape. -/
  | reductionAxis (index : Int) (shape : Shape) (kind : OperationKind)
  | catMismatch (axis : Nat) (first other : Shape)
  | stackMismatch (first other : Shape)
  | conv2dOperands (input weight : Shape)
  | adaptiveRank (input : Shape)
  | linearOperands (input weight : Shape)
  | embeddingWeight (weight : Shape)
deriving Repr

/-- Two values between round brackets. -/
def shownPair (pair : Value × Value) : String := shownTuple [pair.1.shown, pair.2.shown]

namespace ShapeError

/-- Whether the error says that an axis lies outside its shape. -/
def isIndex : ShapeError → Bool
  | axis _ _ => true
  | reductionAxis _ _ _ => true
  | _ => false

def message : ShapeError → String
  | notIntegers dims =>
    "shape dimensions must be integers: " ++ shownTuple (dims.map Value.shown)
  | negative dims =>
    "shape dimensions must be non-negative: " ++ shownTuple (dims.map Value.shown)
  | axis shape index =>
    "dimension index out of range for shape " ++ shape.text ++ ": " ++ toString index
  | notBroadcastable a b => "shapes " ++ a.text ++ " and " ++ b.text ++ " are not broadcastable"
  | unreachable source target => "cannot broadcast " ++ source.text ++ " to " ++ target.text
  | otherResult source target result =>
    "cannot broadcast " ++ source.text ++ " to " ++ target.text ++ ", result would be " ++
      result.text
  | severalInferred target =>
    "only one inferred dimension (-1) allowed in reshape: " ++ shownList (target.map Value.shown)
  | badTarget dim => "invalid dimension in reshape: " ++ dim.plain
  | notDivisible shape target =>
    "cannot reshape " ++ shape.text ++ " to " ++ shownTuple (target.map Value.shown) ++
      ": inferred dimension is not an exact divisor"
  | sizeDiffers shape target =>
    "cannot reshape " ++ shape.text ++ " (size " ++ toString shape.size ++ ") to " ++
      target.text ++ " (size " ++ toString target.size ++ ")"
  | transposeRank shape =>
    "cannot transpose shape with less than 2 dimensions: " ++ shape.text
  | permutationLength rank permutation =>
    "permutation length must match rank " ++ toString rank ++ ": " ++
      shownTuple (permutation.map toString)
  | permutationIndex index => "invalid permutation index: " ++ toString index
  | permutationRepeat index => "duplicate index in permutation: " ++ toString index
  | flattenOrder start stop =>
    "flatten start must be <= end, got start=" ++ toString start ++ ", end=" ++ toString stop
  | productRank a b => "matmul requires at least 1D operands: " ++ a.text ++ ", " ++ b.text
  | productInner m n a b =>
    "matmul inner dimension mismatch: " ++ toString m ++ " != " ++ toString n ++ " for " ++
      a.text ++ " and " ++ b.text
  | notPair name values =>
    name ++ " must be an int or a pair, got: " ++ shownTuple (values.map Value.shown)
  | windowRank input =>
    "convolution input must have at least 2 dimensions: " ++ input.text
  | windowStep stride dilation =>
    "stride and dilation must be positive: stride=" ++ shownPair stride ++ ", dilation=" ++
      shownPair dilation
  | windowTooLarge kernel input =>
    "convolution window " ++ shownPair kernel ++ " larger than padded input " ++ input.text
  | reductionAxis index shape kind =>
    "reduction axis " ++ toString index ++ " out of range for shape " ++ shape.text ++
      " in op " ++ kind.name
  | catMismatch dim first other =>
    "cat inputs must match except along dim " ++ toString dim ++ ": " ++ first.text ++ ", " ++
      other.text
  | stackMismatch first other =>
    "stack inputs must have equal shapes: " ++ first.text ++ ", " ++ other.text
  | conv2dOperands input weight =>
    "conv2d expects (N, C, H, W) input and (F, C, KH, KW) weight: " ++ input.text ++ ", " ++
      weight.text
  | adaptiveRank input => "adaptive pooling input must be at least 2D: " ++ input.text
  | linearOperands input weight =>
    "linear expects (..., in) input and (out, in) weight: " ++ input.text ++ ", " ++ weight.text
  | embeddingWeight weight => "embedding weight must be (num, dim): " ++ weight.text

end ShapeError

/-- What is wrong with the bytes, the element type or the digest of a tensor. -/
inductive TensorError where
  | unknownElementType (name : String)
  | digestSize
  | hashLength (length : Nat)
  | hashCharacter (text : String)
  | dataSize (elementType : ElementType) (shape : Shape) (expected actual : Nat)
  | unsupportedArray (name : String)
  | otherElementType (own asked : ElementType)
  | noView (elementType : ElementType)
deriving Repr

def TensorError.message : TensorError → String
  | unknownElementType name => "unknown dtype name: " ++ quoted name
  | digestSize => "hash digest must be 32 bytes"
  | hashLength length => "invalid hash string length, expected 64: " ++ toString length
  | hashCharacter text => "invalid hex character in hash string: " ++ quoted text
  | dataSize elementType shape expected actual =>
    "data size mismatch for " ++ elementType.name ++ " tensor of shape " ++ shape.text ++
      ": expected " ++ toString expected ++ " bytes but got " ++ toString actual
  | unsupportedArray name => "unsupported numpy dtype: " ++ name
  | otherElementType own asked => "tensor is " ++ own.name ++ ", not " ++ asked.name
  | noView elementType => "no numpy view available for " ++ elementType.name ++ " tensors"

/-- What an operation lacks. -/
inductive OperationError where
  | missingInput (position : Nat) (kind : OperationKind)
  | noInputs (kind : OperationKind)
  | tooFewInputs (kind : OperationKind) (count : Nat)
  | badPair (key : String) (kind : OperationKind) (value : Value)
  | missingKernel (kind : OperationKind)
deriving Repr

def OperationError.message : OperationError → String
  | missingInput position kind =>
    "missing input " ++ toString position ++ " for op " ++ kind.name
  | noInputs kind => "cannot infer shape of op " ++ kind.name ++ " without inputs"
  | tooFewInputs kind count =>
    "op " ++ kind.name ++ " requires 2 inputs, got " ++ toString count
  | badPair key kind value =>
    "attribute " ++ key ++ " of op " ++ kind.name ++ " must be an int or an int sequence: " ++
      value.shown
  | missingKernel kind => "missing kernel_size attribute for op " ++ kind.name

/-- The names of the attribute variants, as records and messages use them. -/
def attributeVariants : List String := ["int", "float", "bool", "str", "ints"]

/-- The directions in which a drawing of a graph can run. -/
def drawingDirections : List String := ["TB", "LR", "BT", "RL"]

/-- What is wrong with a graph or with its document. -/
inductive GraphError where
  | duplicateNode (name : String)
  | unknownNode (name : String) (graph : Value)
  | cyclic (graph : Value)
  | noTensor (kind : NodeKind) (name : String)
  | noInputType (name : String)
  | noOperation (name : String)
  | mergeCollision (other : Value) (name : String)
  | missingId (entries : Entries Value)
  | badNodeKind (name : Value) (kind : Value)
  | unknownOperation (name : String)
  | badAttributeRecord (key : String) (entries : Entries Value)
  | badDirection (direction : String)
deriving Repr

namespace GraphError

/-- Whether the error says that the structure of a graph is invalid. -/
def isValidation : GraphError → Bool
  | cyclic _ => true
  | _ => false

def message : GraphError → String
  | duplicateNode name => "node with id '" ++ name ++ "' already exists"
  | unknownNode name graph => "unknown node '" ++ name ++ "' in graph " ++ graph.shown
  | cyclic graph => "graph " ++ graph.shown ++ " contains cycles"
  | noTensor kind name => kind.name ++ " node '" ++ name ++ "' has no tensor"
  | noInputType name => "output node '" ++ name ++ "' has no input type"
  | noOperation name => "op node '" ++ name ++ "' has no operation"
  | mergeCollision other name =>
    "cannot merge graph " ++ other.shown ++ ": node with id '" ++ name ++ "' already exists"
  | missingId entries =>
    "missing node id in graph document record: " ++ (Value.map entries).shown
  | badNodeKind name kind =>
    "invalid kind for node '" ++ name.plain ++ "': " ++ kind.shown ++ " is not a valid NodeKind"
  | unknownOperation name => "unknown op kind: " ++ quoted name
  | badAttributeRecord key entries =>
    "invalid record for attribute '" ++ key ++ "', expected a single key among " ++
      shownTuple (attributeVariants.map quoted) ++ ": " ++ (Value.map entries).shown
  | badDirection direction =>
    "invalid rankdir " ++ quoted direction ++ ", expected one of " ++
      shownTuple (drawingDirections.map quoted)

end GraphError

/-- Causes that are told by their kind alone. -/
inductive Fault where
  /-- A value of a form that does not fit. -/
  | wrongForm
  /-- A value of the right form that is not allowed. -/
  | badValue
  | missingKey
  /-- A value that has no entries was asked for one. -/
  | noFields
  | indexOutOfRange
  | overflow
  | jsonText
  | yamlText
  | yamlSchema
  | yamlDuplicateKey
  | yamlFlowStyle
  | yamlAnchor
  | yamlTag
  /-- A value that the schema cannot write. -/
  | yamlUnwritable
  | fileNotFound
  | isDirectory
deriving DecidableEq, Repr

/-- Why something could not be done. -/
inductive Error where
  | shape (e : ShapeError)
  | tensor (e : TensorError)
  | operation (e : OperationError)
  | graph (e : GraphError)
  /-- A value that is no attribute. -/
  | badAttribute (value : Value)
  /-- A text that names no kind of operation. -/
  | operationName (name : String)
  /-- A configured element type that does not exist. -/
  | defaultElementType (name : String)
  | fault (f : Fault)
deriving Repr

instance : Inhabited Error := ⟨.fault .badValue⟩

/-- The wording of an error, for the causes that have one. -/
def Error.message? : Error → Option String
  | shape e => some e.message
  | tensor e => some e.message
  | operation e => some e.message
  | graph e => some e.message
  | badAttribute value =>
    some ("unsupported attribute value, expected int, float, bool, str or int sequence: " ++
      value.shown)
  | operationName name => some ("unknown op kind: " ++ quoted name)
  | defaultElementType name => some ("invalid MLCORE_DEFAULT_DTYPE value: " ++ name)
  | fault _ => none

/-- Ends with an error that has no wording of its own. -/
def failWith {α : Type} (f : Fault) : Except Error α := .error (.fault f)

/-- The value of an option, or an error. -/
def orError {α : Type} (value : Option α) (e : Error) : Except Error α :=
  match value with
  | some a => .ok a
  | none => .error e

/-- What a step yields can be checked by running it. -/
instance {α : Type} [DecidableEq α] (x : Except Error α) (a : α) : Decidable (x = .ok a) :=
  match x with
  | .ok b => decidable_of_iff (b = a) ⟨congrArg Except.ok, Except.ok.inj⟩
  | .error _ => isFalse nofun

section Steps

variable {α β : Type} {x : Except Error α} {f : α → Except Error β} {a : α} {b : β} {e : Error}

@[simp] theorem orError_some : orError (some a) e = .ok a := rfl

@[simp] theorem pure_eq_ok : (pure a : Except Error α) = .ok a := rfl

@[simp] theorem ok_bind : (Except.ok a >>= f) = f a := rfl

@[simp] theorem error_bind : (Except.error e >>= f) = .error e := rfl

@[simp] theorem map_ok {g : α → β} : g <$> (Except.ok a : Except Error α) = .ok (g a) := rfl

theorem orError_eq_ok_iff {value : Option α} : orError value e = .ok a ↔ value = some a := by
  cases value <;> simp [orError]

/-- Two steps succeed if and only if each of them does. -/
theorem bind_eq_ok_iff : x >>= f = .ok b ↔ ∃ a, x = .ok a ∧ f a = .ok b := by
  cases x <;> simp

/-- A check along a list passes if and only if all items have the property. -/
theorem forM_check_eq_ok_iff {p : α → Prop} [DecidablePred p] {e : α → Error} {as : List α} :
    (as.forM fun a => if p a then Except.ok (ε := Error) () else .error (e a)) = .ok () ↔
      ∀ a ∈ as, p a := by
  induction as with
  | nil => simp [List.forM]
  | cons first rest ih =>
    rw [List.forall_mem_cons, List.forM]
    by_cases passes : p first
    · rw [if_pos passes, ok_bind, ih]
      exact (and_iff_right passes).symm
    · rw [if_neg passes, error_bind]
      simp [passes]

/-- A list is read if and only if each of its items is, and then item by item. -/
theorem mapM_eq_ok_iff {read : α → Except Error β} {as : List α} {bs : List β} :
    as.mapM read = .ok bs ↔ as.map read = bs.map .ok := by
  induction as generalizing bs with
  | nil => cases bs <;> simp
  | cons first rest ih =>
    rw [List.mapM_cons, List.map_cons]
    simp only [bind_eq_ok_iff, ih, pure_eq_ok, Except.ok.injEq]
    constructor
    · rintro ⟨b, read_first, later, read_later, rfl⟩
      rw [read_first, read_later, List.map_cons]
    · intro same
      cases bs with
      | nil => cases same
      | cons b later =>
        rw [List.map_cons, List.cons.injEq] at same
        exact ⟨b, same.1, later, same.2, rfl⟩

/-- A list is read back if each of its items is. -/
theorem mapM_map_ok {write : β → α} {read : α → Except Error β} {bs : List β}
    (h : ∀ b, read (write b) = .ok b) : (bs.map write).mapM read = .ok bs := by
  induction bs with
  | nil => rfl
  | cons b rest ih => simp [List.mapM_cons, h, ih]

/-- A list is read only if each of its items is. -/
theorem exists_ok_of_mapM {read : α → Except Error β} {as : List α} {bs : List β}
    (h : as.mapM read = .ok bs) {a : α} (hmem : a ∈ as) : ∃ b, read a = .ok b := by
  have image : read a ∈ as.map read := List.mem_map_of_mem hmem
  rw [mapM_eq_ok_iff.1 h] at image
  obtain ⟨b, _, hb⟩ := List.mem_map.1 image
  exact ⟨b, hb.symm⟩

/-- What is read of a list is read item by item. -/
theorem mapM_eq_map {read : α → Except Error β} {f : α → β} {as : List α} {bs : List β}
    (step : ∀ a b, read a = .ok b → b = f a) (h : as.mapM read = .ok bs) : bs = as.map f := by
  induction as generalizing bs with
  | nil =>
    cases h
    rfl
  | cons first rest ih =>
    rw [List.mapM_cons] at h
    obtain ⟨b, hb, h⟩ := bind_eq_ok_iff.1 h
    obtain ⟨bs', hbs, h⟩ := bind_eq_ok_iff.1 h
    cases h
    rw [List.map_cons, step first b hb, ih hbs]

end Steps

end TensorGraph
