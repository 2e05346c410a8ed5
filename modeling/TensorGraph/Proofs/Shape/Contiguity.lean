import TensorGraph.Proofs.Shape.DenseBuffer

/-!
Strides that pass for dense ones. A buffer can be walked with any strides, backwards too. They are as
good as the dense ones if they lead from every index inside the extents to the same place. It is
enough to compare them axis by axis: an index takes no step along an axis with one place, and along
every other axis some index takes one step and none elsewhere.
-/

namespace TensorGraph.Shape

variable {dims index dense : List Nat} {given : List Int} {s : Shape} {layout : Layout}

/-- How far the places of an index lead with strides of either sign. -/
def displacement : List Nat → List Int → Int
  | i :: index, stride :: strides => i * stride + displacement index strides
  | _, _ => 0

@[simp] theorem displacement_cons (i : Nat) (index : List Nat) (stride : Int)
    (strides : List Int) : displacement (i :: index) (stride :: strides) =
      i * stride + displacement index strides := rfl

/-- Whether strides are the dense ones along every axis with several places. -/
def agree (dims : List Nat) (given : List Int) (dense : List Nat) : Bool :=
  (dims.zip (given.zip dense)).all fun (d, stride, wanted) => d ≤ 1 || stride == wanted

@[simp] theorem displacement_zeros (n : Nat) (given : List Int) :
    displacement (List.replicate n 0) given = 0 := by
  induction n generalizing given with
  | zero => rfl
  | succ n ih =>
    cases given with
    | nil => rfl
    | cons stride given => simp [List.replicate_succ, ih]

@[simp] theorem offset_zeros (n : Nat) (dense : List Nat) :
    offset (List.replicate n 0) dense = 0 := by
  induction n generalizing dense with
  | zero => rfl
  | succ n ih =>
    cases dense with
    | nil => rfl
    | cons stride dense => simp [List.replicate_succ, ih]

/-- An index is led to the same place if the strides along which it takes a step are the same. -/
theorem displacement_eq_offset (agreed : agree dims given dense = true)
    (long : given.length = dims.length) (long' : dense.length = dims.length)
    (within : inside dims index = true) : displacement index given = offset index dense := by
  induction dims generalizing index given dense with
  | nil =>
    cases index with
    | nil => rfl
    | cons i index => simp at within
  | cons d dims ih =>
    cases index with
    | nil => simp at within
    | cons i index =>
      obtain ⟨stride, given, rfl⟩ := List.exists_cons_of_length_eq_add_one long
      obtain ⟨wanted, dense, rfl⟩ := List.exists_cons_of_length_eq_add_one long'
      simp only [agree, List.zip_cons_cons, List.all_cons, Bool.and_eq_true, Bool.or_eq_true,
        decide_eq_true_eq, beq_iff_eq] at agreed
      rw [inside_cons] at within
      have step : (i : Int) * stride = (i * wanted : Nat) := by
        rcases agreed.1 with single | same
        · obtain rfl : i = 0 := by omega
          simp
        · rw [same, Int.natCast_mul]
      have later := ih agreed.2 (Nat.succ.inj long) (Nat.succ.inj long') within.2
      rw [displacement_cons, offset_cons, step, later, Int.natCast_add]

/-- Strides that lead every index to the same place agree: along an axis with several places the
index of a single step tells. -/
theorem agree_of_displacement_eq (positive : ∀ d ∈ dims, 0 < d)
    (long : given.length = dims.length) (long' : dense.length = dims.length)
    (same : ∀ index, inside dims index = true → displacement index given = offset index dense) :
    agree dims given dense = true := by
  induction dims generalizing given dense with
  | nil => rfl
  | cons d dims ih =>
    obtain ⟨first, rest⟩ := List.forall_mem_cons.1 positive
    obtain ⟨stride, given, rfl⟩ := List.exists_cons_of_length_eq_add_one long
    obtain ⟨wanted, dense, rfl⟩ := List.exists_cons_of_length_eq_add_one long'
    have later : agree dims given dense = true := by
      refine ih rest (Nat.succ.inj long) (Nat.succ.inj long') fun index within => ?_
      simpa using same (0 :: index) (by simp [first, within])
    have here : d ≤ 1 ∨ stride = wanted := by
      by_cases several : d ≤ 1
      · exact .inl several
      · have wide : 1 < d := by omega
        have step := same (1 :: List.replicate dims.length 0)
          (by simp [wide, inside_zeros rest])
        exact .inr (by simpa using step)
    rw [agree] at later ⊢
    simpa [later] using here

theorem isContiguous_eq_agree (long : given.length = s.rank) :
    s.isContiguous given layout = agree s.dims given (s.strides layout) := by
  have all_eq : s.isContiguous given layout =
      (s.rank == 0 || agree s.dims given (s.strides layout)) := by
    rw [isContiguous, long, beq_self_eq_true, Bool.true_and, agree]
  rw [all_eq]
  by_cases scalar : s.dims = []
  · simp [rank, agree, scalar]
  · simp [rank, scalar]

/-- **Contiguous strides lead where dense ones do.** If a shape has elements, strides of either sign,
one for each axis, are taken for those of a dense buffer in a layout exactly if every index inside the
extents is led by them to where the strides of that layout lead it. -/
theorem isContiguous_iff_displacement_eq (occupied : s.size ≠ 0) (long : given.length = s.rank)
    (layout : Layout) : s.isContiguous given layout = true ↔
      ∀ index, inside s.dims index = true →
        displacement index given = offset index (s.strides layout) := by
  have positive := pos_of_inside (inside_indexAt (Nat.pos_of_ne_zero occupied) layout)
  have long' : (s.strides layout).length = s.rank := length_strides s layout
  rw [isContiguous_eq_agree long]
  constructor
  · intro agreed index within
    exact displacement_eq_offset agreed long long' within
  · exact agree_of_displacement_eq positive long long'

/-- The stride along the middle axis, which has one place, does not matter. -/
theorem isContiguous_iff_displacement_eq_thin :
    Shape.size ⟨[2, 1, 3]⟩ ≠ 0 ∧ isContiguous ⟨[2, 1, 3]⟩ [3, -7, 1] .rowMajor = true ∧
    (∀ index, inside [2, 1, 3] index = true →
      displacement index [3, -7, 1] = offset index [3, 3, 1]) ∧
    ¬ ∀ index, inside [2, 1, 3] index = true →
      displacement index [3, -7, 1] = offset index [1, 2, 2] := by
  have occupied : Shape.size ⟨[2, 1, 3]⟩ ≠ 0 := by decide
  have rows : isContiguous ⟨[2, 1, 3]⟩ [3, -7, 1] .rowMajor = true ↔ _ :=
    isContiguous_iff_displacement_eq occupied rfl .rowMajor
  have columns : isContiguous ⟨[2, 1, 3]⟩ [3, -7, 1] .columnMajor = true ↔ _ :=
    isContiguous_iff_displacement_eq occupied rfl .columnMajor
  refine ⟨occupied, rfl, rows.1 rfl, fun same => ?_⟩
  cases columns.2 same

end TensorGraph.Shape
