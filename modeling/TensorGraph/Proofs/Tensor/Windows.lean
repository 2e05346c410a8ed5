import TensorGraph.Proofs.Shape.Addressing
import TensorGraph.Tensor.Assign

/-!
Elements and their windows. The strides of a tensor lead from an index to a run of bytes; the array
shows at that index what these bytes stand for, and an assignment to the element writes these bytes
and no others. Windows of different indices lie apart, so no other element changes.
-/

namespace TensorGraph

variable {bytes new : List UInt8} {start place width : Nat}

/-- The value at an index of lists inside lists. -/
def Value.at? : List Nat → Value → Option Value
  | [], value => some value
  | i :: index, .list items => items[i]?.bind (at? index)
  | _ :: _, _ => none

theorem at?_nested {dims index : List Nat} (within : Shape.inside dims index = true)
    (f : List Nat → Value) : (nested dims f).at? index = some (f index) := by
  induction dims generalizing index f with
  | nil =>
    cases index with
    | nil => rfl
    | cons i index => simp [Shape.inside] at within
  | cons d dims ih =>
    cases index with
    | nil => simp [Shape.inside] at within
    | cons i index =>
      simp only [Shape.inside, Bool.and_eq_true, decide_eq_true_eq] at within
      simp [nested, Value.at?, within.1, ih within.2]

/-- Lists inside lists are the same if the values at all indices are. -/
theorem nested_congr {dims : List Nat} {f g : List Nat → Value}
    (same : ∀ index, Shape.inside dims index = true → f index = g index) :
    nested dims f = nested dims g := by
  induction dims generalizing f g with
  | nil => exact same [] rfl
  | cons d dims ih =>
    refine congrArg Value.list (List.map_congr_left fun i listed => ih fun index within => ?_)
    exact same (i :: index) (by simp [Shape.inside, List.mem_range.1 listed, within])

/-! ### Bytes that are overwritten -/

/-- A byte is replaced if it lies in the run, and kept if it does not. -/
theorem getElem?_overwrite : (overwrite bytes start new)[place]? =
    if start ≤ place ∧ place < start + new.length ∧ place < bytes.length then
      new[place - start]?
    else bytes[place]? := by
  fun_induction overwrite bytes start new generalizing place with
  | case1 => simp
  | case2 b rest start new ih =>
    cases place with
    | zero => simp
    | succ place => simp [ih, Nat.succ_add]
  | case3 b rest => simp
  | case4 b rest c new ih =>
    cases place with
    | zero => simp
    | succ place => simp [ih]

/-- What is overwritten is read back. -/
theorem take_drop_overwrite (enough : start + new.length ≤ bytes.length) :
    ((overwrite bytes start new).drop start).take new.length = new := by
  apply List.ext_getElem?
  intro k
  rw [List.getElem?_take, List.getElem?_drop, getElem?_overwrite]
  by_cases below : k < new.length
  · simp [below, show start + k < bytes.length by omega]
  · simp [below]

/-- A run of bytes that lies apart is kept. -/
theorem take_drop_overwrite_of_apart
    (apart : place + width ≤ start ∨ start + new.length ≤ place) :
    ((overwrite bytes start new).drop place).take width = (bytes.drop place).take width := by
  apply List.ext_getElem?
  intro k
  rw [List.getElem?_take, List.getElem?_drop, List.getElem?_take, List.getElem?_drop,
    getElem?_overwrite]
  split
  · rw [if_neg (by omega)]
  · rfl

namespace Tensor

variable {t u : Tensor} {index other : List Nat} {value : Value}

/-! ### Windows -/

theorem start_eq_offset (within : Shape.inside t.shape.dims index = true) :
    t.start index = t.elementType.size * Shape.offset index t.strides := by
  rw [start, Shape.position_eq_offset within, strides]

/-- Different runs of one width lie apart. -/
theorem runs_apart {p q : Nat} (width : Nat) (different : p ≠ q) :
    width * p + width ≤ width * q ∨ width * q + width ≤ width * p := by
  have step {x y : Nat} (below : x < y) : width * x + width ≤ width * y := by
    rw [← Nat.mul_succ]
    exact Nat.mul_le_mul_left _ below
  exact (Nat.lt_or_gt_of_ne different).imp step step

/-- The windows of two elements lie apart. -/
theorem start_apart (within : Shape.inside t.shape.dims index = true)
    (within' : Shape.inside t.shape.dims other = true) (different : other ≠ index) :
    t.start other + t.elementType.size ≤ t.start index ∨
      t.start index + t.elementType.size ≤ t.start other :=
  runs_apart _ fun same => different (Shape.eq_of_position_eq within' within same)

theorem window_write (within : Shape.inside t.shape.dims index = true)
    (full : new.length = t.elementType.size) : (t.write index new).window index = new := by
  have enough := start_add_size_le within
  rw [← full] at enough
  have back := take_drop_overwrite enough
  rwa [full] at back

theorem window_write_of_ne (within : Shape.inside t.shape.dims index = true)
    (within' : Shape.inside t.shape.dims other = true) (different : other ≠ index)
    (full : new.length = t.elementType.size) :
    (t.write index new).window other = t.window other :=
  take_drop_overwrite_of_apart (full ▸ start_apart within within' different)

/-! ### Assignments -/

/-- One tensor differs from another at most in a run of its bytes. -/
structure DiffersWithin (t t' : Tensor) (first width : Nat) : Prop where
  shape_eq : t'.shape = t.shape
  elementType_eq : t'.elementType = t.elementType
  layout_eq : t'.layout = t.layout
  length_eq : t'.bytes.length = t.bytes.length
  outside : ∀ k, k < first ∨ first + width ≤ k → t'.bytes[k]? = t.bytes[k]?

theorem differsWithin_self (t : Tensor) (first width : Nat) : DiffersWithin t t first width :=
  ⟨rfl, rfl, rfl, rfl, fun _ _ => rfl⟩

theorem differsWithin_write (t : Tensor) (index : List Nat) (new : List UInt8) :
    DiffersWithin t (t.write index new) (t.start index) new.length where
  shape_eq := rfl
  elementType_eq := rfl
  layout_eq := rfl
  length_eq := length_overwrite _ _ _
  outside := by
    intro k apart
    rw [write, getElem?_overwrite, if_neg]
    omega

theorem put_eq (viewed : t.checkView t.elementType = .ok ())
    (within : Shape.inside t.shape.dims index = true) (value : Value) :
    t.put t.elementType (index.map Int.ofNat) value =
      match t.elementType.encode value with
      | .error e => (t, .error e)
      | .ok new => (t.write index new, .ok ()) := by
  have rank_eq : index.length = t.shape.rank := Shape.length_eq_of_inside within
  have named := Shape.places_map_ofNat within
  cases encoded : t.elementType.encode value with
  | error e => simp [put, viewed, named, rank_eq, writeEach, encoded]
  | ok new => simp [put, viewed, named, rank_eq, writeEach, encoded]

/-! ### The array -/

/-- Where there are elements, an array can have the shape if it can have so many axes and the bytes
can be counted. -/
theorem isIndexable_iff {s : Shape} (within : Shape.inside s.dims index = true) {itemSize : Nat}
    (wide : 0 < itemSize) :
    s.isIndexable itemSize = true ↔ s.rank ≤ maxRank ∧ s.size * itemSize < wordLimit := by
  have positive := Shape.pos_of_inside within
  have all_count : s.dims.filter (· ≠ 0) = s.dims :=
    List.filter_eq_self.2 fun d member => by simpa using Nat.ne_of_gt (positive d member)
  have extents_fit (fits : s.size * itemSize < wordLimit) : s.dims.all (· < wordLimit) = true := by
    rw [List.all_eq_true]
    intro d member
    have below : d ≤ s.size * itemSize :=
      Nat.le_trans (Shape.le_product_of_mem positive member) (Nat.le_mul_of_pos_right _ wide)
    simpa using Nat.lt_of_le_of_lt below fits
  rw [Shape.isIndexable, all_count, ← Shape.size]
  simp only [Bool.and_eq_true, decide_eq_true_eq]
  constructor
  · exact fun all => ⟨all.1.1, all.2⟩
  · exact fun both => ⟨⟨both.1, extents_fit both.2⟩, both.2⟩

/-- Whether an array has room for a tensor. -/
def FitsArray (t : Tensor) : Prop := t.shape.rank ≤ maxRank ∧ t.bytes.length < wordLimit

instance : Decidable t.FitsArray :=
  inferInstanceAs (Decidable (t.shape.rank ≤ maxRank ∧ t.bytes.length < wordLimit))

theorem checkView_eq_ok_iff {asked : ElementType} : t.checkView asked = .ok () ↔
    asked = t.elementType ∧ asked.hasView = true ∧
      t.shape.isIndexable t.elementType.size = true := by
  rw [checkView]
  split
  · next other => simp [other]
  · split <;> simp_all [failWith]

theorem checkView_eq (viewed : t.elementType.hasView = true)
    (within : Shape.inside t.shape.dims index = true) :
    t.checkView t.elementType = if t.FitsArray then .ok () else failWith .badValue := by
  have fits_iff := isIndexable_iff within t.elementType.size_pos
  rw [← t.length_eq] at fits_iff
  rw [checkView, if_neg (not_not_intro rfl), viewed]
  by_cases fits : t.FitsArray
  · rw [if_pos fits, fits_iff.2 fits]
    rfl
  · have refused : t.shape.isIndexable t.elementType.size = false := by
      rw [Bool.eq_false_iff]
      exact fun indexable => fits (fits_iff.1 indexable)
    rw [if_neg fits, refused]
    rfl

theorem checkView_congr (shape_eq : t.shape = u.shape) (type_eq : t.elementType = u.elementType)
    (asked : ElementType) : t.checkView asked = u.checkView asked := by
  rw [checkView, checkView, shape_eq, type_eq]

theorem array_eq_ok_iff {asked : ElementType} {a : Value} :
    t.array asked = .ok a ↔ t.checkView asked = .ok () ∧ a = nested t.shape.dims t.element := by
  cases viewed : t.checkView asked with
  | error e => simp [array, viewed, bind, Except.bind]
  | ok _ => simp [array, viewed, bind, Except.bind, pure, Except.pure, eq_comm]

/-- What an assignment of a value to one element does. -/
structure Assigns (t : Tensor) (index : List Nat) (value : Value) (t' : Tensor)
    (outcome : Except Error Unit) : Prop where
  differs : t.DiffersWithin t' (t.elementType.size * Shape.offset index t.strides)
    t.elementType.size
  others : ∀ other, Shape.inside t.shape.dims other = true → other ≠ index →
    t'.element other = t.element other
  written : ∀ new, t.elementType.encode value = .ok new → outcome = .ok () ∧ t'.window index = new
  refused : ∀ e, t.elementType.encode value = .error e → outcome = .error e ∧ t' = t

theorem assigns_put (viewed : t.checkView t.elementType = .ok ())
    (within : Shape.inside t.shape.dims index = true) (value : Value) :
    t.Assigns index value (t.put t.elementType (index.map Int.ofNat) value).1
      (t.put t.elementType (index.map Int.ofNat) value).2 := by
  rw [put_eq viewed within]
  cases encoded : t.elementType.encode value with
  | error e =>
    refine ⟨differsWithin_self t _ _, fun _ _ _ => rfl, ?_, ?_⟩
    · exact fun new written => nomatch encoded.symm.trans written
    · intro e' refused
      cases encoded.symm.trans refused
      exact ⟨rfl, rfl⟩
  | ok new =>
    have full := ElementType.length_encode encoded
    refine ⟨?_, ?_, ?_, ?_⟩
    · have differs := differsWithin_write t index new
      rwa [full, start_eq_offset within] at differs
    · intro other within' different
      exact congrArg _ (window_write_of_ne within within' different full)
    · intro new' written
      cases encoded.symm.trans written
      exact ⟨rfl, window_write within full⟩
    · exact fun e refused => nomatch encoded.symm.trans refused

/-- **One element, one window.** Where the strides lead from an index inside the extents, there lie
as many bytes of the buffer as the type is wide. The array shows at the index what they stand for.
An assignment to the element puts the bytes of the value there and changes no other byte, so no
other element; one that fails changes nothing. All this needs a tensor for which an array has room:
there is no array of any other, and no assignment changes it. -/
theorem element_at_strides (t : Tensor) (viewed : t.elementType.hasView = true) {index : List Nat}
    (within : Shape.inside t.shape.dims index = true) :
    let width := t.elementType.size
    let first := width * Shape.offset index t.strides
    first + width ≤ t.bytes.length ∧
    (t.FitsArray → (∃ a, t.array t.elementType = .ok a ∧
        a.at? index = some (t.elementType.decode ((t.bytes.drop first).take width))) ∧
      ∀ value, t.Assigns index value (t.put t.elementType (index.map Int.ofNat) value).1
        (t.put t.elementType (index.map Int.ofNat) value).2) ∧
    (¬ t.FitsArray → t.array t.elementType = failWith .badValue ∧
      ∀ value, t.put t.elementType (index.map Int.ofNat) value = (t, failWith .badValue)) := by
  have view_eq := checkView_eq viewed within
  dsimp only
  rw [← start_eq_offset within]
  refine ⟨start_add_size_le within, fun fits => ?_, fun full => ?_⟩
  · rw [if_pos fits] at view_eq
    refine ⟨⟨nested t.shape.dims t.element, ?_, at?_nested within _⟩, assigns_put view_eq within⟩
    rw [array, view_eq]
    rfl
  · rw [if_neg full] at view_eq
    refine ⟨?_, fun value => ?_⟩
    · rw [array, view_eq]
      rfl
    · rw [put, view_eq]
      rfl

/-- Two rows of three elements, column by column. -/
def columns : Tensor := ⟨⟨[2, 3]⟩, .int8, .columnMajor, [1, 4, 2, 5, 3, 6], rfl⟩

theorem element_at_strides_columns :
    columns.FitsArray ∧ Shape.inside columns.shape.dims [0, 1] = true ∧
    columns.elementType.size * Shape.offset [0, 1] columns.strides = 2 ∧
    (∃ a, columns.array .int8 = .ok a ∧ a.at? [0, 1] = some (.int 2)) ∧
    columns.Assigns [0, 1] (.int 9) (columns.put .int8 [0, 1] (.int 9)).1
      (columns.put .int8 [0, 1] (.int 9)).2 := by
  have fits : columns.FitsArray := by decide
  obtain ⟨_, law, _⟩ := @element_at_strides columns rfl [0, 1] rfl
  exact ⟨fits, rfl, rfl, (law fits).1, (law fits).2 (.int 9)⟩

/-- An element on more axes than an array can have. -/
def manyAxes : Tensor := zero ⟨List.replicate 65 1⟩ .uint8 .rowMajor

/-- The one element of this tensor can be reached by its strides, but not in an array. -/
theorem no_array_of_manyAxes : manyAxes.elementType.hasView = true ∧
    Shape.inside manyAxes.shape.dims (List.replicate 65 0) = true ∧
    ¬ ∃ a, manyAxes.array manyAxes.elementType = .ok a := by
  refine ⟨rfl, rfl, fun shown => ?_⟩
  obtain ⟨a, shown⟩ := shown
  have refused : manyAxes.array manyAxes.elementType = failWith .badValue := rfl
  cases shown.symm.trans refused

end Tensor

end TensorGraph
