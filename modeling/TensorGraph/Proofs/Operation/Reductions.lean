import TensorGraph.Proofs.Operation.Joining
import TensorGraph.Proofs.Shape.Regrouping

/-!
Reductions. An axis below zero stands for all axes; what is reduced is then either left with one
place along each reduced axis, or loses these axes. The two results are compared through a
description of the axes that are left, in which an axis keeps its first number. So reductions that
follow each other can be compared as well, though taking out an axis gives the later ones new
numbers.
-/

namespace TensorGraph.Operation

variable {kind kind' : OperationKind} {s : Shape} {axis : Int} {keep : Bool} {i j k : Nat}

/-- The kinds that reduce their input along axes. -/
abbrev ReductionKind := { kind : OperationKind // kind.category = .reduction }

/-- The attributes of a reduction: the axis, and whether it is kept. -/
def reductionAttributes (axis : Int) (keep : Bool) : Attributes :=
  (OrderedMap.empty.put "axis" (.int axis)).put "keepdims" (.bool keep)

/-- The shape inferred for a reduction of a shape. -/
def reduce (kind : ReductionKind) (axis : Int) (keep : Bool) (s : Shape) : Except Error Shape :=
  shapeOn kind (reductionAttributes axis keep) [s]

/-- The axes that a number stands for in a reduction. -/
def reducedAxes (axis : Int) (rank : Nat) : List Nat :=
  if axis < 0 then List.range rank else [axis.toNat]

/-! ### One reduction -/

theorem needsTwo_of_reduction (reduces : kind.category = .reduction) : needsTwo kind = false := by
  have absent : kind ∉
      [OperationKind.matmul, .batchMatmul, .dot, .outer, .conv2d, .linear, .embedding] := by
    simp only [List.mem_cons, List.not_mem_nil, or_false]
    rintro (rfl | rfl | rfl | rfl | rfl | rfl | rfl) <;> cases reduces
  rw [needsTwo, reduces]
  simpa using absent

theorem shapeFrom_of_reduction (reduces : kind.category = .reduction) (attributes : Attributes)
    (first : Shape) (rest : List Shape) :
    shapeFrom kind attributes first rest = reduced kind attributes first := by
  simp only [shapeFrom, reduces]

/-- The first input is reduced, and of its attributes only the axis is read and whether it is kept.
-/
theorem resultShape_eq_reduce {op : Operation} {g : Reference} {gs : List Reference}
    (reduces : op.kind.category = .reduction) (inputs_eq : op.inputs = (g :: gs).map some) :
    op.resultShape = reduce ⟨op.kind, reduces⟩ (op.attributes.getInt "axis" (-1))
      (op.attributes.getBool "keepdims" false) g.shape := by
  have single := needsTwo_of_reduction reduces
  rw [resultShape_eq_shapeOn inputs_eq, List.map_cons, shapeOn_cons single, reduce,
    shapeOn_cons single, shapeFrom_of_reduction reduces, shapeFrom_of_reduction reduces]
  rfl

theorem reduce_eq (kind : ReductionKind) (axis : Int) (keep : Bool) (s : Shape) :
    reduce kind axis keep s =
      if axis < 0 then .ok (if keep then ⟨List.replicate s.rank 1⟩ else .scalar)
      else if s.rank ≤ axis then .error (.shape (.reductionAxis axis s kind))
      else .ok (if keep then s.resized axis.toNat 1 else ⟨s.others axis.toNat⟩) := by
  rw [reduce, shapeOn_cons (needsTwo_of_reduction kind.2), shapeFrom_of_reduction kind.2]
  rfl

theorem reduce_all (kind : ReductionKind) (below : axis < 0) (keep : Bool) (s : Shape) :
    reduce kind axis keep s = .ok (if keep then ⟨List.replicate s.rank 1⟩ else .scalar) := by
  rw [reduce_eq, if_pos below]

theorem reduce_outside (kind : ReductionKind) (outside : s.rank ≤ axis) (keep : Bool) :
    reduce kind axis keep s = .error (.shape (.reductionAxis axis s kind)) := by
  rw [reduce_eq, if_neg (by omega), if_pos outside]

theorem reduce_one (kind : ReductionKind) (inside : k < s.rank) (keep : Bool) :
    reduce kind k keep s = .ok (if keep then s.resized k 1 else ⟨s.others k⟩) := by
  rw [reduce_eq, if_neg (by omega), if_neg (by omega), Int.toNat_natCast]

/-! ### Kept and dropped axes -/

theorem shrinks_ones (s : Shape) :
    Shape.Shrinks (List.range s.rank) s ⟨List.replicate s.rank 1⟩ where
  rank_eq := List.length_replicate
  dimAt_eq k inside := by
    rw [if_pos (List.mem_range.2 inside)]
    simp [Shape.dimAt, inside]

theorem without_range (s : Shape) : s.without (List.range s.rank) = .scalar := by
  have none_left : (List.range s.rank).filter (· ∉ List.range s.rank) = [] := by
    simp
  rw [Shape.without, none_left]
  rfl

theorem shrinks_self (s : Shape) : Shape.Shrinks [] s s where
  rank_eq := rfl
  dimAt_eq _ _ := (if_neg List.not_mem_nil).symm

/-- A reduction that keeps its axes leaves one place along each of them. -/
theorem exists_shrinks_reduce (kind : ReductionKind) (inside : axis < s.rank) :
    ∃ kept, reduce kind axis true s = .ok kept ∧
      Shape.Shrinks (reducedAxes axis s.rank) s kept := by
  by_cases below : axis < 0
  · rw [reducedAxes, if_pos below]
    exact ⟨_, reduce_all kind below true s, shrinks_ones s⟩
  · obtain ⟨k, rfl⟩ := Int.eq_ofNat_of_zero_le (Int.not_lt.1 below)
    have inside' : k < s.rank := Int.ofNat_lt.1 inside
    rw [reducedAxes, if_neg below]
    exact ⟨_, reduce_one kind inside' true, (shrinks_self s).resized inside'⟩

/-- A reduction that drops its axes leaves the others. -/
theorem reduce_drop (kind : ReductionKind) (inside : axis < s.rank) :
    reduce kind axis false s = .ok (s.without (reducedAxes axis s.rank)) := by
  by_cases below : axis < 0
  · rw [reducedAxes, if_pos below, without_range, reduce_all kind below]
    rfl
  · obtain ⟨k, rfl⟩ := Int.eq_ofNat_of_zero_le (Int.not_lt.1 below)
    have inside' : k < s.rank := Int.ofNat_lt.1 inside
    rw [reducedAxes, if_neg below, Int.toNat_natCast, s.without_singleton inside',
      reduce_one kind inside']
    rfl

/-! ### Reductions that follow each other -/

/-- When axes are gone, a further one is reduced at the place that it has by then. -/
theorem reduce_without (kind : ReductionKind) {gone : List Nat} (inside : k < s.rank)
    (left : k ∉ gone) :
    reduce kind (Shape.placeWithout gone k) false (s.without gone) =
      .ok (s.without (k :: gone)) := by
  rw [reduce_one kind (Shape.placeWithout_lt inside left), Shape.others_without inside left]
  rfl

theorem reduce_without_two (first second : ReductionKind) (inside : i < s.rank)
    (inside' : j < s.rank) (different : j ≠ i) :
    (do reduce second (Shape.placeWithout [i] j) false (← reduce first i false s)) =
      .ok (s.without [j, i]) := by
  have step := reduce_without first inside (List.not_mem_nil : i ∉ [])
  rw [s.without_nil, Shape.placeWithout_of_le (by simp)] at step
  rw [step, ok_bind]
  exact reduce_without second inside' (by simpa using different)

/-- Axes that were kept by two reductions are taken out by two squeezes. -/
theorem exists_squeezed_two (first second : ReductionKind) (before : i < j) (inside : j < s.rank) :
    ∃ kept, (do reduce second j true (← reduce first i true s)) = .ok kept ∧
      (do (← kept.squeeze j).squeeze i) = .ok (s.without [i, j]) := by
  have inside' : i < s.rank := by omega
  have shrinks : Shape.Shrinks [j, i] s ((s.resized i 1).resized j 1) :=
    ((shrinks_self s).resized inside').resized inside
  refine ⟨(s.resized i 1).resized j 1, ?_, ?_⟩
  · rw [reduce_one first inside' true]
    exact reduce_one second (Shape.rank_resized.symm ▸ inside) true
  · have single (k : Nat) (member : k ∈ [j, i]) (below : k < s.rank) :
        ((s.resized i 1).resized j 1).dimAt k = 1 := by
      rw [shrinks.dimAt_eq k below, if_pos member]
    have left : i ∉ [j] := by simpa using Nat.ne_of_lt before
    have out_j := Shape.squeeze_without (shrinks.rank_eq ▸ inside) (List.not_mem_nil : j ∉ [])
      (single j (by simp) inside)
    have out_i := Shape.squeeze_without (shrinks.rank_eq ▸ inside') left
      (single i (by simp) inside')
    rw [Shape.without_nil, Shape.placeWithout_of_le (by simp)] at out_j
    rw [Shape.placeWithout_of_le (by simpa using Nat.le_of_lt before)] at out_i
    rw [out_j, ok_bind, out_i, Shape.without_swap, shrinks.without_eq, Shape.without_swap]

/-- **Reduced axes.** The shape of a reduction depends on the shape of the first input, on the axis
and on whether it is kept. An axis that is not there is refused in either case, and all others are
taken; what is kept has one place along the reduced axes and is otherwise the input, and dropping
the axes gives what is left of that without them. Two axes can be reduced in either order, where the
later one moves up if the earlier one is gone, or kept both and squeezed afterwards: the result is
the shape without these two. -/
theorem reduce_kept_and_dropped (s : Shape) :
    (∀ (op : Operation) (g : Reference) (gs : List Reference)
      (reduces : op.kind.category = .reduction), op.inputs = (g :: gs).map some →
      op.resultShape = reduce ⟨op.kind, reduces⟩ (op.attributes.getInt "axis" (-1))
        (op.attributes.getBool "keepdims" false) g.shape) ∧
    (∀ (kind : ReductionKind) (axis : Int),
      (s.rank ≤ axis →
        ∀ keep, reduce kind axis keep s = .error (.shape (.reductionAxis axis s kind))) ∧
      (axis < s.rank → ∃ kept, reduce kind axis true s = .ok kept ∧
        Shape.Shrinks (reducedAxes axis s.rank) s kept ∧
        reduce kind axis false s = .ok (kept.without (reducedAxes axis s.rank)))) ∧
    (∀ (first second : ReductionKind) (i j : Nat), i < j → j < s.rank →
      (do reduce first i false (← reduce second j false s)) = .ok (s.without [i, j]) ∧
      (do reduce second (j - 1 : Nat) false (← reduce first i false s)) = .ok (s.without [i, j]) ∧
      ∃ kept, (do reduce second j true (← reduce first i true s)) = .ok kept ∧
        (do (← kept.squeeze j).squeeze i) = .ok (s.without [i, j])) := by
  refine ⟨fun op g gs => resultShape_eq_reduce, fun kind axis => ⟨?outside, ?inside⟩,
    fun first second i j before inside => ⟨?later_first, ?earlier_first, ?kept⟩⟩
  case outside => exact fun outside => reduce_outside kind outside
  case inside =>
    intro inside
    obtain ⟨kept, made, shrinks⟩ := exists_shrinks_reduce kind inside
    exact ⟨kept, made, shrinks, shrinks.without_eq ▸ reduce_drop kind inside⟩
  case later_first =>
    have twice := reduce_without_two second first inside (Nat.lt_trans before inside)
      (Nat.ne_of_lt before)
    rwa [Shape.placeWithout_of_le (by simpa using Nat.le_of_lt before)] at twice
  case earlier_first =>
    have twice := reduce_without_two first second (Nat.lt_trans before inside) inside
      (Nat.ne_of_gt before)
    rwa [Shape.placeWithout_singleton before, Shape.without_swap] at twice
  case kept => exact exists_squeezed_two first second before inside

/-- The first and the last of three axes, one by the mean and one by the place of the maximum; and
all axes, which are kept with one place each. -/
theorem reduce_kept_and_dropped_outer :
    (do reduce ⟨.argmax, rfl⟩ (2 - 1 : Nat) false (← reduce ⟨.mean, rfl⟩ 0 false ⟨[2, 3, 4]⟩)) =
      .ok ⟨[3]⟩ ∧
    (do reduce ⟨.mean, rfl⟩ 0 false (← reduce ⟨.argmax, rfl⟩ 2 false ⟨[2, 3, 4]⟩)) = .ok ⟨[3]⟩ ∧
    reduce ⟨.sum, rfl⟩ (-1) true ⟨[2, 3, 4]⟩ = .ok ⟨[1, 1, 1]⟩ ∧
    reduce ⟨.sum, rfl⟩ (-1) false ⟨[2, 3, 4]⟩ = .ok .scalar ∧
    reduce ⟨.sum, rfl⟩ 3 true ⟨[2, 3, 4]⟩ =
      .error (.shape (.reductionAxis 3 ⟨[2, 3, 4]⟩ .sum)) := by
  have ones : reduce ⟨.sum, rfl⟩ (-1) true ⟨[2, 3, 4]⟩ = .ok ⟨[1, 1, 1]⟩ := rfl
  obtain ⟨_, one, two⟩ := reduce_kept_and_dropped ⟨[2, 3, 4]⟩
  obtain ⟨later_first, earlier_first, _⟩ :=
    two ⟨.mean, rfl⟩ ⟨.argmax, rfl⟩ 0 2 (by decide) (by decide)
  obtain ⟨kept, made, _, dropped⟩ := (one ⟨.sum, rfl⟩ (-1)).2 (by decide)
  cases ones.symm.trans made
  exact ⟨earlier_first, later_first, ones, dropped, (one ⟨.sum, rfl⟩ 3).1 (by decide) true⟩

end TensorGraph.Operation
