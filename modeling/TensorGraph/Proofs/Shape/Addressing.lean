import TensorGraph.Shape.Position
import TensorGraph.Shape.Strides

/-!
Positions by strides. A position reads the places of an index as the digits of a number; strides
weigh each place on its own and add up. Both lead to the same element, in either layout. Two indices
inside the extents never lead to the same one, because every place is a digit below its base.
-/

namespace TensorGraph.Shape

variable {dims index other : List Nat} {p q : Nat}

/-- How far the places of an index lead from the first element, each weighed with its stride. -/
def offset : List Nat → List Nat → Nat
  | i :: index, stride :: strides => i * stride + offset index strides
  | _, _ => 0

@[simp] theorem offset_nil (strides : List Nat) : offset [] strides = 0 := rfl

@[simp] theorem offset_cons (i stride : Nat) (index strides : List Nat) :
    offset (i :: index) (stride :: strides) = i * stride + offset index strides := rfl

theorem length_eq_of_inside (within : inside dims index = true) : index.length = dims.length := by
  induction dims generalizing index with
  | nil => cases index <;> simp_all
  | cons d dims ih => cases index <;> simp_all

/-- Extents that some index lies inside have places. -/
theorem pos_of_inside (within : inside dims index = true) : ∀ d ∈ dims, 0 < d := by
  induction dims generalizing index with
  | nil => simp
  | cons d dims ih =>
    cases index with
    | nil => simp at within
    | cons i index =>
      rw [inside_cons] at within
      exact List.forall_mem_cons.2 ⟨Nat.zero_lt_of_lt within.1, ih within.2⟩

theorem product_pos (positive : ∀ d ∈ dims, 0 < d) : 0 < product dims := by
  induction dims with
  | nil => exact Nat.one_pos
  | cons d dims ih =>
    obtain ⟨first, rest⟩ := List.forall_mem_cons.1 positive
    exact Nat.mul_pos first (ih rest)

theorem le_product_of_mem (positive : ∀ d ∈ dims, 0 < d) {d : Nat} (member : d ∈ dims) :
    d ≤ product dims := by
  induction dims with
  | nil => cases member
  | cons first rest ih =>
    obtain ⟨first_pos, rest_pos⟩ := List.forall_mem_cons.1 positive
    rcases List.mem_cons.1 member with rfl | later
    · exact Nat.le_mul_of_pos_right d (product_pos rest_pos)
    · exact Nat.le_trans (ih rest_pos later) (Nat.le_mul_of_pos_left _ first_pos)

/-! ### Strides -/

theorem rowPosition_eq (within : inside dims index = true) :
    rowPosition p dims index = p * product dims + offset index (rowStrides dims) := by
  induction dims generalizing index p with
  | nil =>
    cases index with
    | nil => simp
    | cons i index => simp at within
  | cons d dims ih =>
    cases index with
    | nil => simp at within
    | cons i index =>
      have within_rest : inside dims index = true := ((inside_cons ..).1 within).2
      calc rowPosition p (d :: dims) (i :: index)
          = (p * d + i) * product dims + offset index (rowStrides dims) := ih within_rest
        _ = p * product (d :: dims) + offset (i :: index) (rowStrides (d :: dims)) := by
          rw [product_cons, rowStrides, offset_cons, Nat.add_mul, Nat.mul_assoc, Nat.add_assoc]

theorem offset_columnStrides (step : Nat) (dims index : List Nat) :
    offset index (columnStrides step dims) = step * columnPosition dims index := by
  induction dims generalizing index step with
  | nil => cases index <;> rfl
  | cons d dims ih =>
    cases index with
    | nil => rfl
    | cons i index =>
      rw [columnStrides, offset_cons, ih, columnPosition_cons, Nat.mul_add, Nat.mul_comm i,
        Nat.mul_assoc]

/-- An index inside the extents leads to its position by the strides of the layout. -/
theorem position_eq_offset {s : Shape} (within : inside s.dims index = true) (layout : Layout) :
    s.position index layout = offset index (s.strides layout) := by
  cases layout with
  | rowMajor => simpa [position, strides] using rowPosition_eq (p := 0) within
  | columnMajor => simpa [position, strides] using (offset_columnStrides 1 s.dims index).symm

/-! ### Positions that are shared -/

/-- A number has one last digit, and one number before it. -/
theorem eq_of_last_digit {d i j x y : Nat} (below : i < d) (below' : j < d)
    (same : i + d * x = j + d * y) : i = j ∧ x = y := by
  have digit : i = j := by
    have remainder := congrArg (· % d) same
    simpa [Nat.add_mul_mod_self_left, Nat.mod_eq_of_lt, below, below'] using remainder
  refine ⟨digit, Nat.eq_of_mul_eq_mul_left (Nat.zero_lt_of_lt below) ?_⟩
  omega

theorem eq_of_rowPosition_eq (within : inside dims index = true)
    (within' : inside dims other = true)
    (same : rowPosition p dims index = rowPosition q dims other) : p = q ∧ index = other := by
  induction dims generalizing index other p q with
  | nil =>
    cases index <;> cases other <;> simp_all
  | cons d dims ih =>
    cases index with
    | nil => simp at within
    | cons i index =>
      cases other with
      | nil => simp at within'
      | cons j other =>
        rw [inside_cons] at within within'
        obtain ⟨leading, rfl⟩ := ih within.2 within'.2 same
        have digits : i + d * p = j + d * q := by
          rw [Nat.mul_comm d p, Nat.mul_comm d q]
          omega
        obtain ⟨rfl, rfl⟩ := eq_of_last_digit within.1 within'.1 digits
        exact ⟨rfl, rfl⟩

theorem eq_of_columnPosition_eq (within : inside dims index = true)
    (within' : inside dims other = true)
    (same : columnPosition dims index = columnPosition dims other) : index = other := by
  induction dims generalizing index other with
  | nil =>
    cases index <;> cases other <;> simp_all
  | cons d dims ih =>
    cases index with
    | nil => simp at within
    | cons i index =>
      cases other with
      | nil => simp at within'
      | cons j other =>
        rw [inside_cons] at within within'
        obtain ⟨rfl, rest⟩ := eq_of_last_digit within.1 within'.1 same
        rw [ih within.2 within'.2 rest]

/-- Indices that share a position are the same. -/
theorem eq_of_position_eq {s : Shape} {layout : Layout} (within : inside s.dims index = true)
    (within' : inside s.dims other = true)
    (same : s.position index layout = s.position other layout) : index = other := by
  cases layout with
  | rowMajor => exact (eq_of_rowPosition_eq within within' same).2
  | columnMajor => exact eq_of_columnPosition_eq within within' same

/-! ### Positions in both layouts -/

/-- Whether at most one axis has several places, or there are no elements at all. -/
def IsLinear (s : Shape) : Prop := 0 ∈ s.dims ∨ (s.dims.filter (· ≠ 1)).length ≤ 1

instance (s : Shape) : Decidable s.IsLinear :=
  inferInstanceAs (Decidable (0 ∈ s.dims ∨ (s.dims.filter (· ≠ 1)).length ≤ 1))

theorem positions_of_ones (ones : ∀ d ∈ dims, d = 1) (within : inside dims index = true) :
    rowPosition p dims index = p ∧ columnPosition dims index = 0 := by
  induction dims generalizing index p with
  | nil => exact ⟨rfl, rfl⟩
  | cons d dims ih =>
    obtain ⟨rfl, later⟩ := List.forall_mem_cons.1 ones
    cases index with
    | nil => simp at within
    | cons i index =>
      rw [inside_cons, Nat.lt_one_iff] at within
      obtain ⟨rfl, within⟩ := within
      simpa using ih later within

theorem rowPosition_eq_columnPosition (few : (dims.filter (· ≠ 1)).length ≤ 1)
    (within : inside dims index = true) : rowPosition 0 dims index = columnPosition dims index := by
  induction dims generalizing index with
  | nil => rfl
  | cons d dims ih =>
    cases index with
    | nil => simp at within
    | cons i index =>
      rw [inside_cons] at within
      by_cases one : d = 1
      · obtain rfl : i = 0 := by omega
        subst one
        simpa using ih (by simpa using few) within.2
      · -- The one axis with several places: all that follow have one.
        have ones : ∀ e ∈ dims, e = 1 := by simpa [one, List.filter_eq_nil_iff] using few
        obtain ⟨row, column⟩ := positions_of_ones (p := i) ones within.2
        simp [row, column]

theorem inside_zeros (positive : ∀ d ∈ dims, 0 < d) :
    inside dims (List.replicate dims.length 0) = true := by
  induction dims with
  | nil => rfl
  | cons d dims ih =>
    obtain ⟨first, rest⟩ := List.forall_mem_cons.1 positive
    simp [List.replicate_succ, first, ih rest]

theorem rowPosition_zeros (p : Nat) (dims : List Nat) :
    rowPosition p dims (List.replicate dims.length 0) = p * product dims := by
  induction dims generalizing p with
  | nil => simp
  | cons d dims ih => simp [List.replicate_succ, ih, Nat.mul_assoc]

theorem columnPosition_zeros (dims : List Nat) :
    columnPosition dims (List.replicate dims.length 0) = 0 := by
  induction dims with
  | nil => rfl
  | cons d dims ih => simp [List.replicate_succ, ih]

/-- Along two axes with several places the layouts part. -/
theorem exists_positions_ne (positive : ∀ d ∈ dims, 0 < d)
    (several : 1 < (dims.filter (· ≠ 1)).length) :
    ∃ index, inside dims index = true ∧ rowPosition 0 dims index ≠ columnPosition dims index := by
  induction dims with
  | nil => simp at several
  | cons d dims ih =>
    obtain ⟨first, rest_positive⟩ := List.forall_mem_cons.1 positive
    by_cases one : d = 1
    · subst one
      obtain ⟨index, within, apart⟩ := ih rest_positive (by simpa using several)
      exact ⟨0 :: index, by simpa using within, by simpa using apart⟩
    · obtain ⟨e, member, other⟩ : ∃ e ∈ dims, e ≠ 1 := by simpa [one] using several
      have wide : 2 ≤ product dims := by
        have := rest_positive e member
        exact Nat.le_trans (by omega) (le_product_of_mem rest_positive member)
      refine ⟨1 :: List.replicate dims.length 0, ?_, ?_⟩
      · have wider : 1 < d := by omega
        simp [wider, inside_zeros rest_positive]
      · rw [rowPosition_cons, columnPosition_cons, rowPosition_zeros, columnPosition_zeros]
        omega

/-! ### Numbers that name places -/

/-- A place below the extent is named by its own number. -/
theorem place_natCast {d i : Nat} (below : i < d) : place d (i : Int) = .ok i := by
  have counted : ¬ (i : Int) < 0 := by omega
  have missed : ¬ ((i : Int) < 0 ∨ (d : Int) ≤ i) := by omega
  simp only [place, if_neg counted, if_neg missed, Int.toNat_natCast]

theorem places_map_ofNat (within : inside dims index = true) :
    places dims (index.map Int.ofNat) = .ok index := by
  induction dims generalizing index with
  | nil =>
    cases index with
    | nil => rfl
    | cons i index => simp at within
  | cons d dims ih =>
    cases index with
    | nil => rfl
    | cons i index =>
      rw [inside_cons] at within
      have here : place d (Int.ofNat i) = .ok i := place_natCast within.1
      rw [List.map_cons, places, here, ok_bind, ih within.2]
      rfl

end TensorGraph.Shape
