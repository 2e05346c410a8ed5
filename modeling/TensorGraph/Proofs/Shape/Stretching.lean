import Mathlib.Order.Bounds.Basic
import TensorGraph.Proofs.Shape.Broadcasting

/-!
Shapes ordered by stretching. A shape lies below those that keep all its extents other than one and
have at least as many axes. As long as no axis is empty, these are the shapes that it stretches to,
and two shapes broadcast to the least shape above both, if there is any shape above both. That
broadcasting does not depend on the order of its operands, or on how several of them are grouped,
holds of all least upper bounds.
-/

namespace TensorGraph.Shape

variable {a b c j r t : Shape}

/-- Every axis has a place. -/
def Occupied (s : Shape) : Prop := ∀ d ∈ s.dims, 1 ≤ d

instance (s : Shape) : Decidable s.Occupied := inferInstanceAs (Decidable (∀ d ∈ s.dims, 1 ≤ d))

theorem Occupied.fromEnd_pos (occupied : a.Occupied) (i : Nat) : 1 ≤ a.fromEnd i :=
  Nat.one_le_iff_ne_zero.2
    (fromEnd_ne_zero (fun x member => Nat.one_le_iff_ne_zero.1 (occupied x member)) i)

theorem occupied_iff : a.Occupied ↔ ∀ i, 1 ≤ a.fromEnd i := by
  constructor
  · exact Occupied.fromEnd_pos
  · intro positive d member
    obtain ⟨i, there⟩ := List.mem_iff_getElem?.1 (List.mem_reverse.2 member)
    have extent : a.fromEnd i = d := (fromEnd?_eq_some_iff.1 there).2
    rw [← extent]
    exact positive i

theorem Fit.symm {x y : Nat} (fit : Fit x y) : Fit y x := by
  rw [Fit] at fit ⊢
  omega

/-! ### The order -/

/-- A shape lies below the shapes of at least as many axes that keep its extents other than one. -/
instance : PartialOrder Shape where
  le a t := a.rank ≤ t.rank ∧ ∀ i, a.fromEnd i = 1 ∨ a.fromEnd i = t.fromEnd i
  le_refl a := ⟨Nat.le_refl _, fun _ => .inr rfl⟩
  le_trans a b t below above := by
    refine ⟨Nat.le_trans below.1 above.1, fun i => ?_⟩
    have first := below.2 i
    have second := above.2 i
    omega
  le_antisymm a b below above := by
    apply eq_of_fromEnd (Nat.le_antisymm below.1 above.1)
    intro i
    have first := below.2 i
    have second := above.2 i
    omega

theorem le_iff : a ≤ t ↔
    a.rank ≤ t.rank ∧ ∀ i, a.fromEnd i = 1 ∨ a.fromEnd i = t.fromEnd i := Iff.rfl

/-- Without empty axes a shape stretches to those above it. -/
theorem Occupied.broadcastTo_eq_ok_iff_le (occupied : a.Occupied) (target : t.Occupied) :
    broadcastTo a t = .ok c ↔ c = t ∧ a ≤ t := by
  rw [broadcastTo_eq_ok_iff, stretched_eq_iff, le_iff]
  apply and_congr_right
  intro _
  rw [and_left_comm, ← forall_and]
  apply and_congr_right
  intro _
  apply forall_congr'
  intro i
  have source_pos := occupied.fromEnd_pos i
  have target_pos := target.fromEnd_pos i
  rw [Fit]
  omega

/-- Shapes with a common upper bound fit. -/
theorem fit_of_le (left : a ≤ t) (right : b ≤ t) (i : Nat) : Fit (a.fromEnd i) (b.fromEnd i) := by
  have first := left.2 i
  have second := right.2 i
  rw [Fit]
  omega

/-! ### Least upper bounds -/

theorem stretched_comm (a b : Shape) : stretched a b = stretched b a := by
  apply eq_of_fromEnd
  · rw [rank_stretched, rank_stretched, Nat.max_comm]
  · intro i
    rw [fromEnd_stretched, fromEnd_stretched, Nat.max_comm]

theorem Occupied.stretched (left : a.Occupied) (b : Shape) : (stretched a b).Occupied := by
  rw [occupied_iff]
  intro i
  rw [fromEnd_stretched]
  exact Nat.le_trans (left.fromEnd_pos i) (Nat.le_max_left _ _)

/-- An extent that fits is kept, unless it is zero beside one. -/
theorem Occupied.le_stretched (left : a.Occupied) (fit : ∀ i, Fit (a.fromEnd i) (b.fromEnd i)) :
    a ≤ Shape.stretched a b := by
  have rank_eq := rank_stretched a b
  refine ⟨by omega, fun i => ?_⟩
  have fit_here := fit i
  have positive := left.fromEnd_pos i
  rw [fromEnd_stretched]
  rw [Fit] at fit_here
  omega

theorem stretched_le (left : a ≤ t) (right : b ≤ t) : stretched a b ≤ t := by
  have rank_left := left.1
  have rank_right := right.1
  have rank_eq := rank_stretched a b
  refine ⟨by omega, fun i => ?_⟩
  have first := left.2 i
  have second := right.2 i
  rw [fromEnd_stretched]
  omega

theorem mem_upperBounds_pair : t ∈ upperBounds {a, b} ↔ a ≤ t ∧ b ≤ t := by
  simp only [upperBounds_insert, upperBounds_singleton, Set.mem_inter_iff, Set.mem_Ici]

/-- Of two extents that fit and are not zero, the larger one is the one that is not one. -/
theorem isLUB_stretched (left : a.Occupied) (right : b.Occupied)
    (fit : ∀ i, Fit (a.fromEnd i) (b.fromEnd i)) : IsLUB {a, b} (stretched a b) := by
  have above_left : a ≤ stretched a b := left.le_stretched fit
  have above_right : b ≤ stretched a b := by
    rw [stretched_comm]
    exact right.le_stretched fun i => (fit i).symm
  refine ⟨mem_upperBounds_pair.2 ⟨above_left, above_right⟩, fun t above => ?_⟩
  obtain ⟨below, below'⟩ := mem_upperBounds_pair.1 above
  exact stretched_le below below'

/-- **Broadcasting is the join.** Without empty axes two shapes stretch together to their least
upper bound, and fail to do so if they have no upper bound. -/
theorem broadcast_eq_ok_iff_isLUB (left : a.Occupied) (right : b.Occupied) :
    broadcast a b = .ok j ↔ IsLUB {a, b} j := by
  rw [broadcast_eq_ok_iff]
  constructor
  · rintro ⟨fit, rfl⟩
    exact isLUB_stretched left right fit
  · intro least
    obtain ⟨above_left, above_right⟩ := mem_upperBounds_pair.1 least.1
    have fit := fit_of_le above_left above_right
    exact ⟨fit, (isLUB_stretched left right fit).unique least⟩

theorem Occupied.of_broadcast (left : a.Occupied) (made : broadcast a b = .ok j) :
    j.Occupied := by
  obtain ⟨_, rfl⟩ := broadcast_eq_ok_iff.1 made
  exact left.stretched b

/-! ### Three operands -/

theorem isLUB_triple_iff (least : IsLUB {a, b} j) : IsLUB {a, b, c} r ↔ IsLUB {j, c} r := by
  apply isLUB_congr
  have pair := least.upperBounds_eq
  simp only [upperBounds_insert, upperBounds_singleton] at pair ⊢
  rw [← Set.inter_assoc, pair]

/-- Three shapes, stretched in two steps, come to the least shape above all three. If there is one,
the first two fit. -/
theorem broadcast_broadcast_eq_ok_iff (first : a.Occupied) (second : b.Occupied)
    (third : c.Occupied) :
    (broadcast a b >>= fun ab => broadcast ab c) = .ok r ↔ IsLUB {a, b, c} r := by
  rw [bind_eq_ok_iff]
  constructor
  · rintro ⟨ab, made, made'⟩
    have least := (broadcast_eq_ok_iff_isLUB first second).1 made
    rw [isLUB_triple_iff least]
    exact (broadcast_eq_ok_iff_isLUB (first.of_broadcast made) third).1 made'
  · intro least
    -- What lies above all three lies above the first two, so these have a join of their own.
    have above_first : a ≤ r := least.1 (Set.mem_insert a {b, c})
    have above_second : b ≤ r := least.1 (Set.mem_insert_of_mem a (Set.mem_insert b {c}))
    have pair := isLUB_stretched first second (fit_of_le above_first above_second)
    have made : broadcast a b = .ok (stretched a b) :=
      (broadcast_eq_ok_iff_isLUB first second).2 pair
    refine ⟨stretched a b, made, ?_⟩
    rw [broadcast_eq_ok_iff_isLUB (first.of_broadcast made) third, ← isLUB_triple_iff pair]
    exact least

/-- Which operand comes first does not matter, with or without empty axes. -/
theorem broadcast_comm (a b : Shape) : broadcast a b = .ok j ↔ broadcast b a = .ok j := by
  rw [broadcast_eq_ok_iff, broadcast_eq_ok_iff, ← isBroadcastable_iff, ← isBroadcastable_iff,
    isBroadcastable_comm, stretched_comm]

/-- How three operands are grouped does not matter. -/
theorem broadcast_assoc (first : a.Occupied) (second : b.Occupied) (third : c.Occupied) :
    (broadcast a b >>= fun ab => broadcast ab c) = .ok r ↔
      (broadcast b c >>= fun bc => broadcast a bc) = .ok r := by
  have turned : ({a, b, c} : Set Shape) = {b, c, a} := by
    rw [Set.insert_comm a b, Set.pair_comm a c]
  calc (broadcast a b >>= fun ab => broadcast ab c) = .ok r
      ↔ IsLUB {a, b, c} r := broadcast_broadcast_eq_ok_iff first second third
    _ ↔ (broadcast b c >>= fun bc => broadcast bc a) = .ok r := by
      rw [turned, broadcast_broadcast_eq_ok_iff second third first]
    _ ↔ (broadcast b c >>= fun bc => broadcast a bc) = .ok r := by
      simp only [bind_eq_ok_iff, broadcast_comm a]

/-- **Broadcasting is the join of a partial order.** Let no axis be empty. Two shapes that stretch
to one and the same target fit, and what they stretch to together stretches to that target as well.
Two shapes that fit both stretch to what they stretch to together. Neither the order nor the
grouping of operands matters, for the result and for whether there is one. -/
theorem broadcast_least_upper_bound (occupied_a : a.Occupied) (occupied_b : b.Occupied)
    (occupied_t : t.Occupied) (occupied_c : c.Occupied) :
    ((∃ x, broadcastTo a t = .ok x) → (∃ y, broadcastTo b t = .ok y) →
      isBroadcastable a b = true ∧ ∃ j, broadcast a b = .ok j ∧ broadcastTo j t = .ok t) ∧
    (isBroadcastable a b = true →
      ∃ j, broadcast a b = .ok j ∧ broadcastTo a j = .ok j ∧ broadcastTo b j = .ok j) ∧
    isBroadcastable a b = isBroadcastable b a ∧
    (∀ j, broadcast a b = .ok j ↔ broadcast b a = .ok j) ∧
    (∀ r, (broadcast a b >>= fun ab => broadcast ab c) = .ok r ↔
      (broadcast b c >>= fun bc => broadcast a bc) = .ok r) := by
  refine ⟨?bounded, ?bound, isBroadcastable_comm a b, fun j => broadcast_comm a b,
    fun r => broadcast_assoc occupied_a occupied_b occupied_c⟩
  case bounded =>
    rintro ⟨x, reached⟩ ⟨y, reached'⟩
    have left : a ≤ t := ((occupied_a.broadcastTo_eq_ok_iff_le occupied_t).1 reached).2
    have right : b ≤ t := ((occupied_b.broadcastTo_eq_ok_iff_le occupied_t).1 reached').2
    have fit := fit_of_le left right
    have below := stretched_le left right
    have reached_by_both :=
      ((occupied_a.stretched b).broadcastTo_eq_ok_iff_le occupied_t).2 ⟨rfl, below⟩
    exact ⟨isBroadcastable_iff.2 fit, stretched a b, broadcast_eq_ok_iff.2 ⟨fit, rfl⟩,
      reached_by_both⟩
  case bound =>
    intro fits
    have fit := isBroadcastable_iff.1 fits
    have occupied_j := occupied_a.stretched b
    obtain ⟨left, right⟩ := mem_upperBounds_pair.1 (isLUB_stretched occupied_a occupied_b fit).1
    exact ⟨stretched a b, broadcast_eq_ok_iff.2 ⟨fit, rfl⟩,
      (occupied_a.broadcastTo_eq_ok_iff_le occupied_j).2 ⟨rfl, left⟩,
      (occupied_b.broadcastTo_eq_ok_iff_le occupied_j).2 ⟨rfl, right⟩⟩

/-- A matrix and a row, a target of three axes, and a third operand of four. -/
theorem broadcast_least_upper_bound_ranks :
    isBroadcastable ⟨[5, 1]⟩ ⟨[4]⟩ = true ∧
    (∃ j, broadcast ⟨[5, 1]⟩ ⟨[4]⟩ = .ok j ∧ broadcastTo j ⟨[2, 5, 4]⟩ = .ok ⟨[2, 5, 4]⟩) ∧
    (∃ j, broadcast ⟨[5, 1]⟩ ⟨[4]⟩ = .ok j ∧ broadcastTo ⟨[5, 1]⟩ j = .ok j ∧
      broadcastTo ⟨[4]⟩ j = .ok j) ∧
    (broadcast ⟨[4]⟩ ⟨[3, 1, 5, 1]⟩ >>= fun bc => broadcast ⟨[5, 1]⟩ bc) = .ok ⟨[3, 1, 5, 4]⟩ := by
  obtain ⟨bounded, bound, _, _, grouping⟩ :=
    broadcast_least_upper_bound (a := ⟨[5, 1]⟩) (b := ⟨[4]⟩) (t := ⟨[2, 5, 4]⟩)
      (c := ⟨[3, 1, 5, 1]⟩) (by decide) (by decide) (by decide) (by decide)
  obtain ⟨fits, joined⟩ := bounded ⟨_, rfl⟩ ⟨_, rfl⟩
  exact ⟨fits, joined, bound fits, (grouping _).1 rfl⟩

end TensorGraph.Shape
