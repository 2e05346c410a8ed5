import TensorGraph.Proofs.Shape.Relocation
import TensorGraph.Proofs.Tensor.Windows
import TensorGraph.Tensor.RowMajor

/-!
Arrays copied into row order. The elements are gathered index by index, so each keeps its bytes and
its index, and only its position changes: the buffer of the copy is the buffer of the array with its
windows permuted. The array that a tensor is seen as is copied the same way.
-/

namespace TensorGraph

variable {a : ElementType} {shape : Shape} {layout : Layout} {bytes : List UInt8} {width p : Nat}

/-- The bytes of the element at a position. -/
def windowAt (bytes : List UInt8) (width p : Nat) : List UInt8 := (bytes.drop (width * p)).take width

/-- Windows that were put behind each other are found again. -/
theorem windowAt_flatMap {α : Type} {f : α → List UInt8} (wide : 0 < width) {l : List α}
    (even : ∀ x ∈ l, (f x).length = width) {x : α} (listed : l[p]? = some x) :
    windowAt (l.flatMap f) width p = f x := by
  apply List.ext_getElem?
  intro k
  rw [windowAt, List.getElem?_take, List.getElem?_drop, Shape.getElem?_flatMap_of_length wide even]
  split
  · next inside =>
    rw [Nat.mul_add_div wide, Nat.div_eq_of_lt inside, Nat.add_zero, listed, Nat.mul_add_mod,
      Nat.mod_eq_of_lt inside]
    rfl
  · next behind =>
    have full := even x (List.mem_of_getElem? listed)
    exact (List.getElem?_eq_none (by omega)).symm

namespace Tensor

variable {t : Tensor} {index : List Nat}

/-- The strides lead from an index to the window of its element. -/
theorem window_eq_windowAt (within : Shape.inside t.shape.dims index = true) :
    t.window index = windowAt t.bytes t.elementType.size (Shape.offset index t.strides) := by
  rw [window, start_eq_offset within, windowAt]

/-- In row order an element has the same bytes. -/
theorem window_toRowMajor (within : Shape.inside t.shape.dims index = true) :
    t.toRowMajor.window index = t.window index := by
  have below : t.shape.position index .rowMajor < t.shape.size := Shape.position_lt within _
  have listed : (Shape.indices t.shape.dims)[t.shape.position index .rowMajor]? = some index :=
    (Shape.getElem?_indices below).trans (congrArg some (Shape.indexAt_position within .rowMajor))
  exact windowAt_flatMap t.elementType.size_pos
    (fun other member => length_window (Shape.mem_indices.1 member)) listed

/-! ### Copies -/

/-- A tensor in row order has the elements of an array that holds items of a type, with these extents,
in this layout and in these bytes. -/
structure CopiesByIndex (a : ElementType) (shape : Shape) (layout : Layout) (bytes : List UInt8)
    (r : Tensor) : Prop where
  shape_eq : r.shape = shape
  elementType_eq : r.elementType = a
  layout_eq : r.layout = .rowMajor
  same_index : ∀ index, Shape.inside shape.dims index = true →
    windowAt r.bytes a.size (Shape.offset index r.strides) =
      windowAt bytes a.size (Shape.offset index (shape.strides layout))
  permuted : Set.BijOn (shape.relocated .rowMajor layout) {p | p < shape.size} {p | p < shape.size}
  same_element : ∀ p, p < shape.size →
    windowAt r.bytes a.size p = windowAt bytes a.size (shape.relocated .rowMajor layout p)

theorem copiesByIndex_toRowMajor (t : Tensor) :
    CopiesByIndex t.elementType t.shape t.layout t.bytes t.toRowMajor where
  shape_eq := rfl
  elementType_eq := rfl
  layout_eq := rfl
  same_index := by
    intro index within
    have within' : Shape.inside t.toRowMajor.shape.dims index = true := within
    have same := window_toRowMajor within
    rwa [window_eq_windowAt within, window_eq_windowAt within'] at same
  permuted := t.shape.relocated_bijOn .rowMajor t.layout
  same_element := by
    intro p below
    have placed : t.shape.position (t.shape.indexAt p .rowMajor) .rowMajor = p :=
      Shape.position_indexAt below .rowMajor
    calc windowAt t.toRowMajor.bytes t.elementType.size p
        = t.toRowMajor.window (t.shape.indexAt p .rowMajor) := congrArg (windowAt _ _) placed.symm
      _ = t.window (t.shape.indexAt p .rowMajor) :=
        window_toRowMajor (Shape.inside_indexAt below .rowMajor)

theorem array_toRowMajor (t : Tensor) (asked : ElementType) :
    t.toRowMajor.array asked = t.array asked := by
  have viewed : t.toRowMajor.checkView asked = t.checkView asked := checkView_congr rfl rfl asked
  have elements : nested t.shape.dims t.toRowMajor.element = nested t.shape.dims t.element :=
    nested_congr fun _ within => congrArg t.elementType.decode (window_toRowMajor within)
  rw [array, array, viewed]
  exact congrArg (t.checkView asked >>= fun _ => .ok ·) elements

theorem withAxis_of_rank_pos (axes : 1 ≤ t.shape.rank) : t.withAxis = t :=
  dif_neg fun none => absurd axes (by simp [Shape.rank, none])

theorem ofArray_eq (room : shape.isIndexable a.size = true)
    (full : bytes.length = shape.size * a.size) (layout : Layout) :
    ofArray (.single (.number a false)) shape layout bytes =
      .ok (toRowMajor ⟨shape, a, layout, bytes, full⟩).withAxis := by
  have size_eq : (ArrayType.single (.number a false)).size = a.size := rfl
  have readable : (ArrayType.single (.number a false)).isReadable = true := by cases a <;> rfl
  have counted : (bytes.length != shape.size * a.size) = false := by simp [full]
  have stored : ofBytes shape a bytes layout = .ok ⟨shape, a, layout, bytes, full⟩ := dif_pos full
  rw [ofArray, size_eq, readable, room, counted]
  change (ofBytes shape a bytes layout >>= fun t => .ok t.toRowMajor.withAxis) = _
  rw [stored, ok_bind]

/-! ### The array of a tensor -/

/-- The tensor from the array that a tensor is seen as. The array lies over the bytes of the tensor, so
it has the extents and the layout of the tensor. -/
def fromView (t : Tensor) : Except Error Tensor := do
  t.checkView t.elementType
  ofArray (.single (.number t.elementType false)) t.shape t.layout t.bytes

theorem fromView_eq_error {e : Error} (refused : t.array t.elementType = .error e) :
    t.fromView = .error e := by
  cases viewed : t.checkView t.elementType with
  | error e' =>
    rw [array, viewed, error_bind] at refused
    rw [fromView, viewed, error_bind]
    exact congrArg Except.error (Except.error.inj refused)
  | ok _ => cases (array_eq_ok_iff.2 ⟨viewed, rfl⟩).symm.trans refused

theorem fromView_eq {v : Value} (shown : t.array t.elementType = .ok v) :
    t.fromView = .ok t.toRowMajor.withAxis := by
  have viewed := (array_eq_ok_iff.1 shown).1
  rw [fromView, viewed, ok_bind, ofArray_eq (checkView_eq_ok_iff.1 viewed).2.2 t.length_eq]

theorem gathered_of_scalar (scalar : t.shape.dims = []) : t.gathered = t.bytes := by
  have single : t.bytes.length ≤ t.elementType.size := by
    rw [t.length_eq, Shape.size, scalar, Shape.product_nil, Nat.one_mul]
  have first : t.start [] = 0 := by
    rw [start]
    cases t.layout <;> simp [Shape.position, scalar]
  rw [gathered, scalar, Shape.indices, List.flatMap_singleton, window, first, List.drop_zero,
    List.take_of_length_le single]

/-- **Conversion goes by index.** An array has extents that an array can have, and as many bytes as its
items take. If it has an axis, and items of an element type that arrays know, it becomes a tensor of
the same extents in row order, whatever its own layout is. At every index this tensor is seen to hold
what the strides of the array lead to, and its buffer is that of the array with the windows permuted.
So the array that a tensor is seen as becomes a tensor that is seen as the same array; without any
axis it gets one of extent one, and what cannot be seen as an array is not converted. -/
theorem conversion_by_index :
    (∀ a shape layout bytes, a.hasView = true → shape.isIndexable a.size = true →
      bytes.length = shape.size * a.size → 1 ≤ shape.rank →
      ∃ r, ofArray (.single (.number a false)) shape layout bytes = .ok r ∧
        CopiesByIndex a shape layout bytes r ∧
        ∃ v, r.array a = .ok v ∧ ∀ index, Shape.inside shape.dims index = true →
          v.at? index =
            some (a.decode (windowAt bytes a.size (Shape.offset index (shape.strides layout))))) ∧
    (∀ (t : Tensor) v, t.array t.elementType = .ok v → 1 ≤ t.shape.rank →
      ∃ r, t.fromView = .ok r ∧ CopiesByIndex t.elementType t.shape t.layout t.bytes r ∧
        r.array t.elementType = .ok v) ∧
    (∀ (t : Tensor) v, t.array t.elementType = .ok v → t.shape.rank = 0 →
      ∃ r, t.fromView = .ok r ∧ r.shape = ⟨[1]⟩ ∧ r.layout = .rowMajor ∧ r.bytes = t.bytes) ∧
    ∀ (t : Tensor) e, t.array t.elementType = .error e → t.fromView = .error e := by
  refine ⟨fun a shape layout bytes known room full axes => ?converted,
    fun t v shown axes => ?seen, fun t v shown bare => ?scalar, fun t e => fromView_eq_error⟩
  case converted =>
    let source : Tensor := ⟨shape, a, layout, bytes, full⟩
    have viewed : source.checkView a = .ok () := checkView_eq_ok_iff.2 ⟨rfl, known, room⟩
    have made := ofArray_eq room full layout
    rw [withAxis_of_rank_pos axes] at made
    refine ⟨source.toRowMajor, made, copiesByIndex_toRowMajor source,
      nested shape.dims source.element, ?_, fun index within => ?_⟩
    · rw [array_toRowMajor, array_eq_ok_iff]
      exact ⟨viewed, rfl⟩
    · rw [at?_nested within, element, window_eq_windowAt within]
      rfl
  case seen =>
    have made := fromView_eq shown
    rw [withAxis_of_rank_pos (t := t.toRowMajor) axes] at made
    exact ⟨t.toRowMajor, made, copiesByIndex_toRowMajor t, (array_toRowMajor t _).trans shown⟩
  case scalar =>
    have scalar : t.toRowMajor.shape.dims = [] := List.length_eq_zero_iff.1 bare
    refine ⟨_, fromView_eq shown, ?_⟩
    rw [withAxis, dif_pos scalar]
    exact ⟨rfl, rfl, gathered_of_scalar scalar⟩

/-- Two rows of two integers of two bytes each, column by column. -/
def wideColumns : Tensor := ⟨⟨[2, 2]⟩, .int16, .columnMajor, [1, 0, 3, 0, 2, 0, 4, 1], rfl⟩

/-- The elements in the corners stay where they are, the others change places. -/
theorem conversion_by_index_wideColumns :
    ElementType.int16.hasView = true ∧ wideColumns.shape.isIndexable 2 = true ∧
    (∃ r, ofArray (.single (.number .int16 false)) ⟨[2, 2]⟩ .columnMajor wideColumns.bytes = .ok r ∧
      CopiesByIndex .int16 ⟨[2, 2]⟩ .columnMajor wideColumns.bytes r) ∧
    ∃ r, wideColumns.fromView = .ok r ∧ r.bytes = [1, 0, 2, 0, 3, 0, 4, 1] ∧
      r.array .int16 = wideColumns.array .int16 := by
  obtain ⟨convert, seen, _⟩ := conversion_by_index
  obtain ⟨r, made, copies, _⟩ := convert .int16 ⟨[2, 2]⟩ .columnMajor wideColumns.bytes rfl
    (by decide) rfl (by decide)
  have shown : wideColumns.array .int16 = .ok (nested [2, 2] wideColumns.element) := rfl
  obtain ⟨u, rearranged, _, same⟩ := seen wideColumns _ shown (by decide)
  have rows : wideColumns.fromView =
    .ok ⟨⟨[2, 2]⟩, .int16, .rowMajor, [1, 0, 2, 0, 3, 0, 4, 1], rfl⟩ := rfl
  cases rows.symm.trans rearranged
  exact ⟨rfl, by decide, ⟨r, made, copies⟩, _, rows, rfl, same.trans shown.symm⟩

end Tensor

end TensorGraph
