import Mathlib.Data.Int.Interval
import Mathlib.Data.Set.Card
import TensorGraph.Proofs.Shape.Broadcasting
import TensorGraph.Shape.Window

/-!
Windows, counted. The number of windows along an axis is computed by one division, rounded down,
and one more. That number is the number of places at which a window fits, counted one by one: the
window at place `j` starts `j` strides into the padded axis and has to end inside of it. A quotient
below zero stands for no place at all, and then the window is refused.
-/

namespace TensorGraph.Shape

variable {input : Shape} {value kernel stride padding dilation : Value} {name : String}
  {pair sizes steps pads gaps : Int × Int} {size : Nat} {k s p d : Int}

/-- A value that is taken for these two integers, whatever it is asked for. -/
def GivesPair (value : Value) (pair : Int × Int) : Prop :=
  ∀ name, (pairOf value name >>= wholePair) = .ok pair

/-- The places at which a window fits into an axis with padding on both sides. -/
def placements (size : Nat) (kernel stride padding dilation : Int) : Set Int :=
  { j | 0 ≤ j ∧ j * stride + dilation * (kernel - 1) + 1 ≤ size + 2 * padding }

/-! ### Pairs -/

/-- One integer stands for both. -/
theorem givesPair_int (n : Int) : GivesPair (.int n) (n, n) := fun _ => rfl

/-- So does an integer that is listed alone. -/
theorem givesPair_single (n : Int) : GivesPair (.tuple [.int n]) (n, n) := fun _ => rfl

theorem givesPair_both (m n : Int) : GivesPair (.tuple [.int m, .int n]) (m, n) := fun _ => rfl

theorem GivesPair.exists_pairOf (gives : GivesPair value pair) (name : String) :
    ∃ values, pairOf value name = .ok values ∧ wholePair values = .ok pair :=
  bind_eq_ok_iff.1 (gives name)

/-! ### Places -/

theorem mem_placements_iff (step : 0 < s) (j : Int) :
    j ∈ placements size k s p d ↔ 0 ≤ j ∧ j < windowCount size k s p d := by
  rw [windowCount, Int.fdiv_eq_ediv_of_nonneg _ (Int.le_of_lt step), Int.lt_add_one_iff,
    Int.le_ediv_iff_mul_le step, placements, Set.mem_ofPred_eq]
  apply and_congr_right
  intro _
  omega

theorem encard_placements (step : 0 < s) :
    (placements size k s p d).encard = (windowCount size k s p d).toNat := by
  have interval : placements size k s p d = Finset.Ico 0 (windowCount size k s p d) := by
    ext j
    rw [mem_placements_iff step, Finset.coe_Ico, Set.mem_Ico]
  rw [interval, Set.encard_coe_eq_coe_finsetCard, Int.card_Ico, Int.sub_zero]

/-! ### Windows along both axes -/

/-- With steps above zero, only a window that fits nowhere along one of the axes is refused. -/
theorem slidingWindow_eq (wide : 2 ≤ input.rank) (kernel_pair : GivesPair kernel sizes)
    (stride_pair : GivesPair stride steps) (padding_pair : GivesPair padding pads)
    (dilation_pair : GivesPair dilation gaps) (step : 0 < steps.1 ∧ 0 < steps.2)
    (gap : 0 < gaps.1 ∧ 0 < gaps.2) {rows columns : Int}
    (rows_eq : windowCount (input.fromEnd 1) sizes.1 steps.1 pads.1 gaps.1 = rows)
    (columns_eq : windowCount (input.fromEnd 0) sizes.2 steps.2 pads.2 gaps.2 = columns) :
    ∃ shown, pairOf kernel "kernel_size" = .ok shown ∧
      input.slidingWindow kernel stride padding dilation =
        if 0 < rows ∧ 0 < columns then .ok (rows.toNat, columns.toNat)
        else .error (.shape (.windowTooLarge shown input)) := by
  obtain ⟨kernels, kernel_made, kernel_whole⟩ := kernel_pair.exists_pairOf "kernel_size"
  obtain ⟨strides, stride_made, stride_whole⟩ := stride_pair.exists_pairOf "stride"
  obtain ⟨paddings, padding_made, padding_whole⟩ := padding_pair.exists_pairOf "padding"
  obtain ⟨dilations, dilation_made, dilation_whole⟩ := dilation_pair.exists_pairOf "dilation"
  refine ⟨kernels, kernel_made, ?_⟩
  have steps_pass : ¬ min steps.1 steps.2 ≤ 0 := by omega
  have gaps_pass : ¬ min gaps.1 gaps.2 ≤ 0 := by omega
  obtain ⟨front, reverse_eq⟩ := exists_reverse_eq wide
  rw [slidingWindow, reverse_eq]
  simp only [kernel_made, stride_made, padding_made, dilation_made, kernel_whole, stride_whole,
    padding_whole, dilation_whole, ok_bind, if_neg steps_pass, if_neg gaps_pass, rows_eq,
    columns_eq, error_bind, pure_eq_ok]
  by_cases few : rows < 1
  · rw [if_pos few, if_neg (by omega)]
  · by_cases few' : columns < 1
    · rw [if_neg few, if_pos few', if_neg (by omega)]
    · rw [if_neg few, if_neg few', if_pos (by omega)]

end TensorGraph.Shape
