import TensorGraph.Error

/-!
Positions of elements in a dense buffer. An index names one element by its place along each axis;
the layout decides where that element lies. Every index inside the extents has a position below
the number of elements.
-/

namespace TensorGraph.Shape

/-- Whether an index has one place for each extent, and each place lies below it. -/
def inside : List Nat → List Nat → Bool
  | [], [] => true
  | d :: dims, i :: index => i < d && inside dims index
  | _, _ => false

/-- Every index inside the extents, the last axis varying fastest. -/
def indices : List Nat → List (List Nat)
  | [] => [[]]
  | d :: dims => (List.range d).flatMap fun i => (indices dims).map (i :: ·)

/-- The position where the last axis varies fastest: the places are the digits of a number whose
bases are the extents, the first one leading. -/
def rowPosition : Nat → List Nat → List Nat → Nat
  | p, d :: dims, i :: index => rowPosition (p * d + i) dims index
  | p, _, _ => p

/-- The position where the first axis varies fastest: the places are digits, the first one
last. -/
def columnPosition : List Nat → List Nat → Nat
  | d :: dims, i :: index => i + d * columnPosition dims index
  | _, _ => 0

/-- The position of an element in a dense buffer. -/
def position (s : Shape) (index : List Nat) : Layout → Nat
  | .rowMajor => rowPosition 0 s.dims index
  | .columnMajor => columnPosition s.dims index

/-- The place along an axis that a number names. A number below zero counts from the end. -/
def place (d : Nat) (i : Int) : Except Error Nat :=
  let i := if i < 0 then i + d else i
  if i < 0 ∨ d ≤ i then failWith .indexOutOfRange else .ok i.toNat

/-- The places that numbers name along the leading axes. -/
def places : List Nat → List Int → Except Error (List Nat)
  | _, [] => .ok []
  | [], _ :: _ => failWith .indexOutOfRange
  | d :: dims, i :: rest => do
    let i ← place d i
    return i :: (← places dims rest)

/-! ### Axis by axis -/

section

variable (d i p : Nat) (dims index : List Nat)

@[simp] theorem inside_nil : inside [] [] = true := rfl

@[simp] theorem inside_nil_cons : inside [] (i :: index) = false := rfl

@[simp] theorem inside_cons_nil : inside (d :: dims) [] = false := rfl

@[simp] theorem inside_cons :
    inside (d :: dims) (i :: index) = true ↔ i < d ∧ inside dims index = true := by
  change (decide (i < d) && inside dims index) = true ↔ _
  rw [Bool.and_eq_true, decide_eq_true_eq]

@[simp] theorem rowPosition_nil : rowPosition p [] index = p := rfl

@[simp] theorem rowPosition_cons :
    rowPosition p (d :: dims) (i :: index) = rowPosition (p * d + i) dims index := rfl

@[simp] theorem columnPosition_nil : columnPosition [] index = 0 := rfl

@[simp] theorem columnPosition_cons :
    columnPosition (d :: dims) (i :: index) = i + d * columnPosition dims index := rfl

end

/-! ### Indices and their positions -/

theorem mem_indices {dims index : List Nat} :
    index ∈ indices dims ↔ inside dims index = true := by
  induction dims generalizing index with
  | nil => cases index <;> simp [indices]
  | cons d dims ih =>
    cases index with
    | nil => simp [indices]
    | cons i index => simp [indices, ih]

/-- There are as many indices as elements. -/
theorem length_indices (dims : List Nat) : (indices dims).length = product dims := by
  induction dims with
  | nil => rfl
  | cons d dims ih => simp [indices, List.length_flatMap, ih, List.map_const']

theorem rowPosition_lt {dims index : List Nat} (h : inside dims index = true) {p n : Nat}
    (hp : p < n) : rowPosition p dims index < n * product dims := by
  induction dims generalizing index p n with
  | nil => simpa using hp
  | cons d dims ih =>
    cases index with
    | nil => simp at h
    | cons i index =>
      rw [inside_cons] at h
      have step : p * d + i < n * d := by
        calc p * d + i < p * d + d := by omega
          _ = (p + 1) * d := by rw [Nat.succ_mul]
          _ ≤ n * d := Nat.mul_le_mul_right d hp
      simpa [Nat.mul_assoc] using ih h.2 step

theorem columnPosition_lt {dims index : List Nat} (h : inside dims index = true) :
    columnPosition dims index < product dims := by
  induction dims generalizing index with
  | nil => simp
  | cons d dims ih =>
    cases index with
    | nil => simp at h
    | cons i index =>
      rw [inside_cons] at h
      have bound := ih h.2
      calc i + d * columnPosition dims index
          < d + d * columnPosition dims index := by omega
        _ = d * (columnPosition dims index + 1) := by rw [Nat.mul_succ, Nat.add_comm]
        _ ≤ d * product dims := Nat.mul_le_mul_left d bound
        _ = product (d :: dims) := by simp

/-- An index inside the extents lies inside the buffer. -/
theorem position_lt {s : Shape} {index : List Nat} (h : inside s.dims index = true)
    (layout : Layout) : s.position index layout < s.size := by
  cases layout with
  | rowMajor => simpa [position, size] using rowPosition_lt h Nat.zero_lt_one
  | columnMajor => exact columnPosition_lt h

end TensorGraph.Shape
