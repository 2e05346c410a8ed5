import TensorGraph.Graph.Types
import TensorGraph.Proofs.Graph.Sorting

/-!
How inference fails. The rules read attributes of any variant and length and look into shapes of any
rank, yet a failure is always told by the rules themselves: it is an error about shapes, or one
about what the operation lacks. Only missing inputs and the attributes of windows lead to the second
kind, so an operation with all inputs that its kind asks for can only fail in its shapes.
-/

namespace TensorGraph

variable {α β : Type} {fails fails' : Error → Prop} {yields : α → Prop} {yields' : β → Prop}
  {x : Except Error α} {f : α → Except Error β} {a : α} {e : Error}

/-- A step yields a value of one kind or fails with an error of another. -/
def Ends (fails : Error → Prop) (yields : α → Prop) : Except Error α → Prop
  | .ok a => yields a
  | .error e => fails e

/-- A step that fails, if it does, with an error of one kind. -/
def FailsOnly (fails : Error → Prop) (x : Except Error α) : Prop := Ends fails (fun _ => True) x

@[simp] theorem failsOnly_ok : FailsOnly fails (.ok a) := trivial

@[simp] theorem failsOnly_error : FailsOnly fails (.error e : Except Error α) ↔ fails e := Iff.rfl

theorem Ends.bind (first : Ends fails yields x) (next : ∀ a, yields a → Ends fails yields' (f a)) :
    Ends fails yields' (x >>= f) := by
  cases x with
  | ok a => exact next a first
  | error e => exact first

theorem Ends.failsOnly (ends : Ends fails yields x) : FailsOnly fails x := by
  cases x with
  | ok a => trivial
  | error e => exact ends

theorem FailsOnly.bind (first : FailsOnly fails x) (next : ∀ a, FailsOnly fails (f a)) :
    FailsOnly fails (x >>= f) :=
  Ends.bind first fun a _ => next a

/-- A check that comes before a step. -/
theorem FailsOnly.check {c : Prop} [Decidable c] (told : fails e) (rest : FailsOnly fails x) :
    FailsOnly fails (if c then (Except.error e : Except Error PUnit) >>= fun _ => x else x) := by
  split
  · exact told
  · exact rest

theorem failsOnly_orError {value : Option α} (told : fails e) :
    FailsOnly fails (orError value e) := by
  cases value with
  | none => exact told
  | some a => trivial

theorem FailsOnly.mono (only : FailsOnly fails x) (weaker : ∀ e, fails e → fails' e) :
    FailsOnly fails' x := by
  cases x with
  | ok a => trivial
  | error e => exact weaker e only

theorem FailsOnly.cases (only : FailsOnly fails x) :
    (∃ a, x = .ok a) ∨ ∃ e, x = .error e ∧ fails e := by
  cases x with
  | ok a => exact .inl ⟨a, rfl⟩
  | error e => exact .inr ⟨e, rfl, only⟩

theorem failsOnly_forM {as : List β} {check : β → Except Error PUnit}
    (only : ∀ a ∈ as, FailsOnly fails (check a)) : FailsOnly fails (as.forM check) := by
  induction as with
  | nil => trivial
  | cons a as ih =>
    obtain ⟨first, later⟩ := List.forall_mem_cons.1 only
    exact first.bind fun _ => ih later

theorem failsOnly_mapM {as : List α} (only : ∀ a ∈ as, FailsOnly fails (f a)) :
    FailsOnly fails (as.mapM f) := by
  induction as with
  | nil => trivial
  | cons a as ih =>
    obtain ⟨first, later⟩ := List.forall_mem_cons.1 only
    rw [List.mapM_cons]
    exact first.bind fun _ => (ih later).bind fun _ => failsOnly_ok

theorem failsOnly_foldlM {as : List α} {step : β → α → Except Error β} {b : β}
    (only : ∀ b, ∀ a ∈ as, FailsOnly fails (step b a)) : FailsOnly fails (as.foldlM step b) := by
  induction as generalizing b with
  | nil => trivial
  | cons a as ih =>
    rw [List.foldlM_cons]
    exact (only b a List.mem_cons_self).bind fun _ =>
      ih fun b a later => only b a (List.mem_cons_of_mem _ later)

/-- An error about shapes, one of an axis outside its shape included. -/
def Error.IsShape (e : Error) : Prop := ∃ s, e = .shape s

/-- An error about what an operation lacks. -/
def Error.IsOperation (e : Error) : Prop := ∃ o, e = .operation o

def Error.IsGraph (e : Error) : Prop := ∃ g, e = .graph g

@[simp] theorem Error.isShape_shape (s : ShapeError) : (Error.shape s).IsShape := ⟨s, rfl⟩

@[simp] theorem Error.isOperation_operation (o : OperationError) :
    (Error.operation o).IsOperation := ⟨o, rfl⟩

/-! ### Shapes -/

namespace Shape

variable {s : Shape}

theorem failsOnly_axisAmong (count index : Int) :
    FailsOnly Error.IsShape (s.axisAmong count index) := by
  unfold axisAmong
  generalize (if index < 0 then index + count else index) = position
  dsimp only
  split <;> simp

theorem failsOnly_axis (index : Int) : FailsOnly Error.IsShape (s.axis index) :=
  failsOnly_axisAmong _ _

theorem failsOnly_broadcast (a b : Shape) : FailsOnly Error.IsShape (broadcast a b) := by
  rw [broadcast]
  split <;> simp

theorem failsOnly_productBatch (a b : Shape) (batchA batchB : List Nat) :
    FailsOnly Error.IsShape (productBatch a b batchA batchB) := by
  rw [productBatch]
  split
  · simp
  · exact (failsOnly_broadcast _ _).bind fun _ => failsOnly_ok

theorem failsOnly_matrixProduct (a b : Shape) : FailsOnly Error.IsShape (matrixProduct a b) := by
  rw [matrixProduct]
  split
  · split
    · simp
    · exact (failsOnly_productBatch _ _ _ _).bind fun _ => failsOnly_ok
  · simp

theorem failsOnly_ofValues (values : List Value) : FailsOnly Error.IsShape (ofValues values) := by
  rw [ofValues]
  refine (failsOnly_mapM fun value _ => ?_).bind fun _ => failsOnly_ok
  split
  · split <;> simp
  · simp

theorem failsOnly_checkTarget (target : List Int) (opened : Bool) (rest : List Int) :
    FailsOnly Error.IsShape (checkTarget target opened rest) := by
  fun_induction checkTarget target opened rest <;> simp_all

theorem failsOnly_sameSize (result : Shape) : FailsOnly Error.IsShape (s.sameSize result) := by
  rw [sameSize]
  split <;> simp

theorem failsOnly_reshape (target : List Int) : FailsOnly Error.IsShape (s.reshape target) := by
  rw [reshape]
  refine (failsOnly_checkTarget _ _ _).bind fun _ => ?_
  split
  · dsimp only
    split
    · simp
    · exact failsOnly_sameSize _
  · exact failsOnly_sameSize _

theorem failsOnly_squeeze (index : Int) : FailsOnly Error.IsShape (s.squeeze index) :=
  (failsOnly_axis _).bind fun _ => failsOnly_ok

theorem failsOnly_unsqueeze (index : Int) : FailsOnly Error.IsShape (s.unsqueeze index) :=
  (failsOnly_axisAmong _ _).bind fun _ => failsOnly_ok

theorem failsOnly_checkPermutation (rank : Nat) (seen permutation : List Int) :
    FailsOnly Error.IsShape (checkPermutation rank seen permutation) := by
  fun_induction checkPermutation rank seen permutation <;> simp_all

theorem failsOnly_permute (permutation : List Int) :
    FailsOnly Error.IsShape (s.permute permutation) := by
  rw [permute]
  split
  · simp
  · exact (failsOnly_checkPermutation _ _ _).bind fun _ => failsOnly_ok

theorem failsOnly_transpose : FailsOnly Error.IsShape s.transpose := by
  rw [transpose]
  split <;> simp

theorem failsOnly_flatten (start stop : Int) : FailsOnly Error.IsShape (s.flatten start stop) := by
  refine (failsOnly_axis _).bind fun first => (failsOnly_axis _).bind fun last => ?_
  split <;> simp

/-! ### Windows -/

/-- An integer, or a tuple of them: what attributes give for a window. -/
inductive IsWhole : Value → Prop where
  | int (n : Int) : IsWhole (.int n)
  | ints (ns : List Int) : IsWhole (.tuple (ns.map .int))

/-- A pair of integers. -/
def IsWholePair (pair : Value × Value) : Prop := ∃ m n, pair = (.int m, .int n)

theorem ends_pairOf {value : Value} (whole : IsWhole value) (name : String) :
    Ends Error.IsShape IsWholePair (pairOf value name) := by
  cases whole with
  | int n => exact ⟨n, n, rfl⟩
  | ints ns =>
    match ns with
    | [] => exact ⟨_, rfl⟩
    | [m] => exact ⟨m, m, rfl⟩
    | [m, n] => exact ⟨m, n, rfl⟩
    | _ :: _ :: _ :: _ => exact ⟨_, rfl⟩

theorem wholePair_eq {pair : Value × Value} (whole : IsWholePair pair) :
    ∃ p, wholePair pair = .ok p := by
  obtain ⟨m, n, rfl⟩ := whole
  exact ⟨(m, n), rfl⟩

theorem failsOnly_slidingWindow {kernel stride padding dilation : Value}
    (kernel_whole : IsWhole kernel) (stride_whole : IsWhole stride)
    (padding_whole : IsWhole padding) (dilation_whole : IsWhole dilation) :
    FailsOnly Error.IsShape (s.slidingWindow kernel stride padding dilation) := by
  rw [slidingWindow]
  split
  · refine (ends_pairOf kernel_whole _).bind fun _ kernel => ?_
    refine (ends_pairOf stride_whole _).bind fun _ stride => ?_
    refine (ends_pairOf padding_whole _).bind fun _ padding => ?_
    refine (ends_pairOf dilation_whole _).bind fun _ dilation => ?_
    obtain ⟨kernels, kernels_eq⟩ := wholePair_eq kernel
    obtain ⟨strides, strides_eq⟩ := wholePair_eq stride
    obtain ⟨paddings, paddings_eq⟩ := wholePair_eq padding
    obtain ⟨dilations, dilations_eq⟩ := wholePair_eq dilation
    rw [kernels_eq, strides_eq, paddings_eq, dilations_eq]
    simp only [ok_bind]
    apply FailsOnly.check ⟨_, rfl⟩
    apply FailsOnly.check ⟨_, rfl⟩
    apply FailsOnly.check ⟨_, rfl⟩
    exact FailsOnly.check ⟨_, rfl⟩ failsOnly_ok
  · simp

end Shape

/-! ### Operations -/

namespace Operation

variable {kind : OperationKind} {attributes : Attributes} {setting : Option String}
  {op : Operation}

theorem failsOnly_reduced (s : Shape) : FailsOnly Error.IsShape (reduced kind attributes s) := by
  unfold reduced
  dsimp only
  split
  · simp
  · split <;> simp

theorem failsOnly_concatenated (index : Int) (first : Shape) (rest : List Shape) :
    FailsOnly Error.IsShape (concatenated index first rest) := by
  refine (Shape.failsOnly_axis _).bind fun k => ?_
  refine (failsOnly_forM fun s _ => ?_).bind fun _ => failsOnly_ok
  split <;> simp

theorem failsOnly_stacked (index : Int) (first : Shape) (rest : List Shape) :
    FailsOnly Error.IsShape (stacked index first rest) := by
  refine (failsOnly_forM fun s _ => ?_).bind fun _ => ?_
  · split <;> simp
  · exact (Shape.failsOnly_axisAmong _ _).bind fun _ => failsOnly_ok

theorem failsOnly_linearShape (input weight : Shape) :
    FailsOnly Error.IsShape (linearShape input weight) := by
  rw [linearShape]
  split
  · split <;> simp
  · simp

theorem failsOnly_embeddedShape (indices weight : Shape) :
    FailsOnly Error.IsShape (embeddedShape indices weight) := by
  rw [embeddedShape]
  split <;> simp

theorem failsOnly_rearranged (first : Shape) (rest : List Shape) :
    FailsOnly Error.IsShape (rearranged kind attributes first rest) := by
  unfold rearranged
  split
  · exact Shape.failsOnly_reshape _
  · exact Shape.failsOnly_reshape _
  · exact Shape.failsOnly_flatten _ _
  · split
    · exact Shape.failsOnly_squeeze _
    · exact failsOnly_ok
  · exact Shape.failsOnly_unsqueeze _
  · exact Shape.failsOnly_permute _
  · exact failsOnly_concatenated _ _ _
  · exact failsOnly_stacked _ _ _
  · exact failsOnly_ok

/-! ### Windows -/

/-- Whether the attributes of a kind describe a window. -/
def hasWindow (kind : OperationKind) : Bool :=
  [OperationKind.conv2d, .maxPool2d, .avgPool2d, .adaptiveAvgPool2d].contains kind

/-- An error that inference tells once the inputs are there. -/
def IsTold (kind : OperationKind) (e : Error) : Prop :=
  e.IsShape ∨ hasWindow kind = true ∧ e.IsOperation

theorem isTold_of_isShape : ∀ e : Error, e.IsShape → IsTold kind e := fun _ => .inl

theorem ends_intOrPair (windowed : hasWindow kind = true) {default : Value}
    (whole : Shape.IsWhole default) (key : String) :
    Ends (IsTold kind) Shape.IsWhole (intOrPair kind attributes key default) := by
  rw [intOrPair]
  split
  · exact whole
  · exact .int _
  · exact .ints _
  · exact .inr ⟨windowed, by simp⟩

theorem failsOnly_windowed (slides : hasWindow kind = true) (input : Shape) {kernel step : Value}
    (kernel_whole : Shape.IsWhole kernel) (step_whole : Shape.IsWhole step) :
    FailsOnly (IsTold kind) (windowed kind attributes input kernel step) := by
  refine (ends_intOrPair slides step_whole _).bind fun _ stride => ?_
  refine (ends_intOrPair slides (.int 0) _).bind fun _ padding => ?_
  refine (ends_intOrPair slides (.int 1) _).bind fun _ dilation => ?_
  exact (Shape.failsOnly_slidingWindow kernel_whole stride padding dilation).mono isTold_of_isShape

theorem failsOnly_convolved (slides : hasWindow kind = true) (input weight : Shape) :
    FailsOnly (IsTold kind) (convolved kind attributes input weight) := by
  rw [convolved]
  split
  · next filters channels height width _ =>
    split
    · exact .inl ⟨_, rfl⟩
    · refine (failsOnly_windowed slides input ?_ (.int 1)).bind fun _ => failsOnly_ok
      exact .ints [height, width]
  · exact .inl ⟨_, rfl⟩

theorem failsOnly_pooled (slides : hasWindow kind = true) (input : Shape) :
    FailsOnly (IsTold kind) (pooled kind attributes input) := by
  apply FailsOnly.check (.inr ⟨slides, _, rfl⟩)
  refine (ends_intOrPair slides (.int 1) _).bind fun _ kernel => ?_
  exact (failsOnly_windowed slides input kernel kernel).bind fun _ => failsOnly_ok

theorem failsOnly_adaptivelyPooled (slides : hasWindow kind = true) (input : Shape) :
    FailsOnly (IsTold kind) (adaptivelyPooled kind attributes input) := by
  apply FailsOnly.check (.inl ⟨_, rfl⟩)
  refine (ends_intOrPair slides (.int 1) _).bind fun _ size => ?_
  refine ((Shape.ends_pairOf size _).failsOnly.mono isTold_of_isShape).bind fun _ => ?_
  exact (Shape.failsOnly_ofValues _).mono isTold_of_isShape

theorem failsOnly_shapeFrom (first : Shape) (rest : List Shape) :
    FailsOnly (IsTold kind) (shapeFrom kind attributes first rest) := by
  unfold shapeFrom
  dsimp only
  split
  · exact (Shape.failsOnly_broadcast _ _).mono isTold_of_isShape
  · exact (Shape.failsOnly_broadcast _ _).mono isTold_of_isShape
  · split
    · exact failsOnly_ok
    · exact (Shape.failsOnly_broadcast _ _).mono isTold_of_isShape
  · exact (failsOnly_reduced _).mono isTold_of_isShape
  · exact failsOnly_ok
  · exact (failsOnly_rearranged _ _).mono isTold_of_isShape
  · split
    · exact (Shape.failsOnly_matrixProduct _ _).mono isTold_of_isShape
    · exact (Shape.failsOnly_matrixProduct _ _).mono isTold_of_isShape
    · split
      · exact Shape.failsOnly_transpose.mono isTold_of_isShape
      · exact (Shape.failsOnly_permute _).mono isTold_of_isShape
    · exact failsOnly_ok
    · exact failsOnly_ok
    · exact failsOnly_convolved rfl _ _
    · exact failsOnly_pooled rfl _
    · exact failsOnly_pooled rfl _
    · exact failsOnly_adaptivelyPooled rfl _
    · exact (failsOnly_linearShape _ _).mono isTold_of_isShape
    · exact (failsOnly_embeddedShape _ _).mono isTold_of_isShape
    · exact failsOnly_ok

/-! ### Inputs -/

theorem failsOnly_presentFrom (position : Nat) (inputs : List (Option Reference)) :
    FailsOnly Error.IsOperation (presentFrom kind position inputs) := by
  induction inputs generalizing position with
  | nil => exact failsOnly_ok
  | cons input rest ih =>
    cases input with
    | none => exact ⟨_, rfl⟩
    | some r => exact (ih _).bind fun _ => failsOnly_ok

theorem exists_presentFrom (position : Nat) {inputs : List (Option Reference)}
    (complete : ∀ input ∈ inputs, input.isSome = true) :
    ∃ given, presentFrom kind position inputs = .ok given ∧ given.length = inputs.length := by
  induction inputs generalizing position with
  | nil => exact ⟨[], rfl, rfl⟩
  | cons input rest ih =>
    obtain ⟨first, later⟩ := List.forall_mem_cons.1 complete
    obtain ⟨r, rfl⟩ := Option.isSome_iff_exists.1 first
    obtain ⟨given, present, long⟩ := ih (position + 1) later
    exact ⟨r :: given, by simp [presentFrom, present], by simp [long]⟩

/-- An error of inference, whether an input is missing or not. -/
def IsInferred (e : Error) : Prop := e.IsOperation ∨ e.IsShape

theorem isInferred_of_isTold (e : Error) (told : IsTold kind e) : IsInferred e :=
  told.elim .inr fun both => .inl both.2

theorem failsOnly_resultShape (op : Operation) : FailsOnly IsInferred op.resultShape := by
  rw [resultShape]
  split
  · exact .inl ⟨_, rfl⟩
  · split
    · exact .inl ⟨_, rfl⟩
    · refine ((failsOnly_presentFrom _ _).mono fun _ => .inl).bind fun given => ?_
      split
      · exact .inl ⟨_, rfl⟩
      · exact (failsOnly_shapeFrom _ _).mono isInferred_of_isTold

/-- Where there is an input and none is missing, the first one is found. -/
theorem exists_first (some_input : op.inputs.isEmpty = false)
    (complete : ∀ input ∈ op.inputs, input.isSome = true) :
    ∃ first rest, op.presentInputs = .ok (first :: rest) := by
  obtain ⟨given, present, long⟩ := @exists_presentFrom op.kind 0 _ complete
  cases given with
  | nil =>
    rw [List.isEmpty_iff_length_eq_zero.2 long.symm] at some_input
    cases some_input
  | cons first rest => exact ⟨first, rest, present⟩

/-- With enough inputs and none missing, the rules of the kind decide. -/
theorem failsOnly_resultShape_of_complete (some_input : op.inputs.isEmpty = false)
    (enough : needsTwo op.kind = true → 2 ≤ op.inputs.length)
    (complete : ∀ input ∈ op.inputs, input.isSome = true) :
    FailsOnly (IsTold op.kind) op.resultShape := by
  obtain ⟨first, rest, present⟩ := exists_first some_input complete
  have two : ¬ (needsTwo op.kind = true ∧ op.inputs.length < 2) :=
    fun few => Nat.not_lt.2 (enough few.1) few.2
  rw [resultShape, some_input, if_neg Bool.false_ne_true, if_neg two, present, ok_bind]
  exact failsOnly_shapeFrom _ _

/-- With an input and none missing, the result has an element type. -/
theorem exists_resultType (setting : Option String) (some_input : op.inputs.isEmpty = false)
    (complete : ∀ input ∈ op.inputs, input.isSome = true) :
    ∃ t, op.resultType setting = .ok t := by
  obtain ⟨first, rest, present⟩ := exists_first some_input complete
  rw [resultType, some_input, if_neg Bool.false_ne_true, present, ok_bind]
  exact ⟨_, rfl⟩

/-- A kind with a fixed number of inputs has all inputs that its rule reads, and no window. -/
theorem fixed_inputCount {n : Nat} (fixed : kind.inputCount? = some n) :
    n ≠ 0 ∧ (needsTwo kind = true → 2 ≤ n) ∧ hasWindow kind = false := by
  have all_kinds : ∀ k ∈ OperationKind.list, ∀ m ∈ k.inputCount?,
      m ≠ 0 ∧ (needsTwo k = true → 2 ≤ m) ∧ hasWindow k = false := by
    decide +kernel
  exact all_kinds kind (OperationKind.mem_list kind) n fixed

theorem complete_of_validate (valid : op.validate = true) :
    (∀ n, op.kind.inputCount? = some n → op.inputs.length = n) ∧
      ∀ input ∈ op.inputs, input.isSome = true := by
  rw [validate, Bool.and_eq_true, List.all_eq_true] at valid
  refine ⟨fun n fixed => ?_, valid.2⟩
  simpa [fixed] using valid.1

/-- An operation that is valid and of a kind with a fixed number of inputs fails in its shapes, if
at all, and always has an element type. -/
theorem infers_of_validate (setting : Option String) (valid : op.validate = true)
    (fixed : op.kind.inputCount?.isSome = true) :
    (∃ t, op.resultType setting = .ok t) ∧ FailsOnly Error.IsShape op.resultShape := by
  obtain ⟨n, fixed⟩ := Option.isSome_iff_exists.1 fixed
  obtain ⟨counted, complete⟩ := complete_of_validate valid
  obtain ⟨positive, two, no_window⟩ := fixed_inputCount fixed
  rw [← counted n fixed] at positive two
  have some_input : op.inputs.isEmpty = false := by
    rwa [Bool.eq_false_iff, ne_eq, List.isEmpty_iff_length_eq_zero]
  refine ⟨exists_resultType setting some_input complete, ?_⟩
  refine (failsOnly_resultShape_of_complete some_input two complete).mono fun e told => ?_
  exact told.resolve_right fun windowed => Bool.false_ne_true (no_window.symm.trans windowed.1)

/-- The type of the result is never what inference fails for once it has found a shape. -/
theorem failsOnly_result (setting : Option String) (op : Operation) :
    FailsOnly IsInferred (op.result setting) := by
  rw [result]
  cases shaped : op.resultShape with
  | error e =>
    have told := failsOnly_resultShape op
    rw [shaped] at told
    exact told
  | ok s =>
    obtain ⟨some_input, _, _, present⟩ := exists_presentInputs shaped
    obtain ⟨t, typed⟩ := exists_resultType setting some_input (isSome_of_presentFrom present)
    rw [ok_bind, typed]
    exact failsOnly_ok

end Operation

/-! ### Graphs -/

namespace Graph

variable {g : Graph} {setting : Option String}

/-- An error of the pass over the nodes: of the graph, or of an operation. -/
def IsTyping (e : Error) : Prop := e.IsGraph ∨ Operation.IsInferred e

theorem failsOnly_typeOf (types : OrderedMap Reference) (n : Node) :
    FailsOnly IsTyping (typeOf setting types n) := by
  unfold typeOf
  split
  · split
    · exact (Operation.failsOnly_result _ _).mono fun _ => .inr
    · exact .inl ⟨_, rfl⟩
  · exact failsOnly_orError (.inl ⟨_, rfl⟩)
  · exact failsOnly_orError (.inl ⟨_, rfl⟩)

theorem failsOnly_sorted (g : Graph) : FailsOnly IsTyping g.sorted := by
  rw [sorted]
  split
  · exact .inl ⟨_, rfl⟩
  · exact failsOnly_ok

theorem failsOnly_forwardTypes (setting : Option String) (g : Graph) :
    FailsOnly IsTyping (g.forwardTypes setting) := by
  refine (failsOnly_sorted g).bind fun order => failsOnly_foldlM fun types name _ => ?_
  rw [addType]
  split
  · exact (failsOnly_typeOf _ _).bind fun _ => failsOnly_ok
  · exact failsOnly_ok

/-- What is sorted is there. -/
theorem Reached.exists_node_of_sorted (reached : g.Reached) {order : List String}
    (sorted : g.sorted = .ok order) {name : String} (listed : name ∈ order) :
    ∃ n, g.node? name = some n := by
  obtain ⟨acyclic, rfl⟩ := reached.indexed.sorted_eq_ok_iff.1 sorted
  obtain ⟨n, member, rfl⟩ := mem_names.1 (reached.indexed.placement_subset listed)
  exact ⟨n, reached.indexed.node?_of_mem member⟩

/-- A sum of two vectors that do not fit each other. -/
def misfit : Operation :=
  { kind := .add, inputs := [some (.empty ⟨[2]⟩ .int8), some (.empty ⟨[3]⟩ .float32)] }

end Graph

end TensorGraph
