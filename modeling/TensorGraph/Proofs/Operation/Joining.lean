import Mathlib.Algebra.BigOperators.Ring.List
import Mathlib.Algebra.Ring.Nat
import TensorGraph.Operation.ResultShape
import TensorGraph.Proofs.Shape.Axes

/-!
Shapes that are joined. The rules compare every shape with the first one and build the result from
that one; here a join is described from its result: the shapes are the result apart from one axis,
and along that axis their extents add up. In this description no shape comes first. It is read for
`cat` and, with shapes that get a new axis, for `stack`, so the two can be compared, and a list of
shapes can be cut in two.
-/

namespace TensorGraph.Operation

variable {kind : OperationKind} {attributes : Attributes} {op : Operation} {first r x y : Shape}
  {rest shapes xs ys widened : List Shape} {given : List Reference}
  {inputs : List (Option Reference)} {position k : Nat} {index : Int}

/-! ### Inputs -/

theorem presentFrom_eq_ok_iff :
    presentFrom kind position inputs = .ok given ↔ inputs = given.map some := by
  induction inputs generalizing position given with
  | nil => cases given <;> simp [presentFrom]
  | cons input later ih =>
    cases input with
    | none => cases given <;> simp [presentFrom]
    | some reference =>
      cases given with
      | nil => simp [presentFrom, bind_eq_ok_iff]
      | cons g gs => simp [presentFrom, bind_eq_ok_iff, ih, and_comm, eq_comm (a := reference)]

/-- With inputs that are there, the shapes of the inputs decide, and nothing else of them. -/
theorem resultShape_of_given {g : Reference} {gs : List Reference}
    (inputs_eq : op.inputs = (g :: gs).map some) :
    op.resultShape =
      if needsTwo op.kind = true ∧ gs = [] then .error (.operation (.tooFewInputs op.kind 1))
      else shapeFrom op.kind op.attributes g.shape (gs.map Reference.shape) := by
  have present : op.presentInputs = .ok (g :: gs) := presentFrom_eq_ok_iff.2 inputs_eq
  rw [resultShape, present, inputs_eq]
  cases gs with
  | nil => simp
  | cons h hs => simp

/-- The shape inferred for an operation on inputs of these shapes. -/
def shapeOn (kind : OperationKind) (attributes : Attributes) (shapes : List Shape) :
    Except Error Shape :=
  resultShape { kind, attributes, inputs := (shapes.map (.empty · .float32)).map some }

theorem resultShape_eq_shapeOn (inputs_eq : op.inputs = given.map some) :
    op.resultShape = shapeOn op.kind op.attributes (given.map Reference.shape) := by
  rw [shapeOn]
  cases given with
  | nil => rw [resultShape, inputs_eq]; rfl
  | cons g gs =>
    rw [resultShape_of_given inputs_eq, resultShape_of_given rfl]
    simp only [List.map_eq_nil_iff, List.map_map]
    rfl

theorem shapeOn_cons (single : needsTwo kind = false) :
    shapeOn kind attributes (first :: rest) = shapeFrom kind attributes first rest := by
  have same : (rest.map (Reference.empty · .float32)).map Reference.shape = rest := by
    rw [List.map_map]
    exact List.map_id' rest
  rw [shapeOn, resultShape_of_given rfl, if_neg (by simp [single]), same]
  rfl

theorem exists_given_of_resultShape (made : op.resultShape = .ok r) :
    ∃ given, op.inputs = List.map some given ∧ given ≠ [] ∧
      shapeOn op.kind op.attributes (given.map Reference.shape) = .ok r := by
  obtain ⟨_, g, gs, present⟩ := exists_presentInputs made
  have inputs_eq := presentFrom_eq_ok_iff.1 present
  exact ⟨g :: gs, inputs_eq, List.cons_ne_nil _ _, by rw [← resultShape_eq_shapeOn inputs_eq, made]⟩

/-! ### Joins -/

/-- A shape is the join of others along an axis: apart from that axis it agrees with each of them,
and along it their extents add up. -/
structure Joins (k : Nat) (shapes : List Shape) (r : Shape) : Prop where
  agrees : ∀ s ∈ shapes, s.rank = r.rank ∧ s.others k = r.others k
  extent : r.dimAt k = (shapes.map (·.dimAt k)).sum

theorem concatenated_eq_ok_iff : concatenated index first rest = .ok r ↔
    ∃ k, r.axis index = .ok k ∧ Joins k (first :: rest) r := by
  rw [concatenated, bind_eq_ok_iff]
  constructor
  · rintro ⟨k, named, made⟩
    obtain ⟨⟨⟩, passed, result⟩ := bind_eq_ok_iff.1 made
    rw [forM_check_eq_ok_iff] at passed
    have inside := (Shape.axis_eq_ok_iff.1 named).1
    obtain rfl : first.resized k _ = r := Except.ok.inj result
    refine ⟨k, (Shape.axis_eq_ok_iff_of_rank Shape.rank_resized).2 named, ?_, ?_⟩
    · rw [List.forall_mem_cons, Shape.rank_resized, Shape.others_resized]
      exact ⟨⟨rfl, rfl⟩, passed⟩
    · exact Shape.dimAt_resized inside
  · rintro ⟨k, named, joins⟩
    obtain ⟨⟨rank_eq, same⟩, rest_agrees⟩ := List.forall_mem_cons.1 joins.agrees
    have inside := (Shape.axis_eq_ok_iff.1 named).1
    have inside_first : k < first.rank := rank_eq ▸ inside
    refine ⟨k, (Shape.axis_eq_ok_iff_of_rank rank_eq).2 named, bind_eq_ok_iff.2 ⟨(), ?_, ?_⟩⟩
    · rw [forM_check_eq_ok_iff]
      intro s member
      obtain ⟨rank_eq', same'⟩ := rest_agrees s member
      exact ⟨rank_eq'.trans rank_eq.symm, same'.trans same.symm⟩
    · refine congrArg Except.ok (Shape.eq_of_others (s := first.resized k _) ?_ inside ?_ ?_)
      · rwa [Shape.rank_resized]
      · rw [Shape.dimAt_resized inside_first, joins.extent]
        rfl
      · rw [Shape.others_resized, same]

/-- The elements of a join are those of its parts. -/
theorem Joins.size_eq (inside : k < r.rank) (joins : Joins k shapes r) :
    r.size = (shapes.map Shape.size).sum := by
  have part (s : Shape) (member : s ∈ shapes) :
      s.dimAt k * Shape.product (r.others k) = s.size := by
    obtain ⟨rank_eq, same⟩ := joins.agrees s member
    rw [← same, Shape.size_eq_mul (rank_eq ▸ inside)]
  calc r.size
      = (shapes.map (·.dimAt k)).sum * Shape.product (r.others k) := by
        rw [Shape.size_eq_mul inside, joins.extent]
    _ = (shapes.map fun s => s.dimAt k * Shape.product (r.others k)).sum :=
        (List.sum_map_mul_right shapes (·.dimAt k) _).symm
    _ = (shapes.map Shape.size).sum := by rw [List.map_congr_left part]

/-- A list of shapes can be joined in two parts. -/
theorem joins_append_iff (inside : k < r.rank) : Joins k (xs ++ ys) r ↔
    ∃ x y, Joins k xs x ∧ Joins k ys y ∧ Joins k [x, y] r := by
  constructor
  · rintro ⟨agrees, extent⟩
    obtain ⟨agrees_xs, agrees_ys⟩ := List.forall_mem_append.1 agrees
    have part (zs : List Shape) (agrees : ∀ s ∈ zs, s.rank = r.rank ∧ s.others k = r.others k) :
        Joins k zs (r.resized k (zs.map (·.dimAt k)).sum) := by
      refine ⟨?_, Shape.dimAt_resized inside⟩
      rwa [Shape.rank_resized, Shape.others_resized]
    refine ⟨_, _, part xs agrees_xs, part ys agrees_ys, ?_, ?_⟩
    · simp
    · simp [Shape.dimAt_resized inside, extent]
  · rintro ⟨x, y, joins_x, joins_y, agrees, extent⟩
    obtain ⟨rank_x, others_x⟩ := agrees x (by simp)
    obtain ⟨rank_y, others_y⟩ := agrees y (by simp)
    refine ⟨List.forall_mem_append.2 ⟨fun s member => ?_, fun s member => ?_⟩, ?_⟩
    · obtain ⟨rank_eq, same⟩ := joins_x.agrees s member
      exact ⟨rank_eq.trans rank_x, same.trans others_x⟩
    · obtain ⟨rank_eq, same⟩ := joins_y.agrees s member
      exact ⟨rank_eq.trans rank_y, same.trans others_y⟩
    · rw [extent, List.map_append, List.sum_append, ← joins_x.extent, ← joins_y.extent]
      simp

/-! ### Stacks -/

/-- The parts of a stack are what the result is without the new axis. -/
theorem stacked_eq_ok_iff : stacked index first rest = .ok r ↔
    ∃ k, r.axis index = .ok k ∧ (∀ s ∈ first :: rest, r.others k = s.dims) ∧
      r.dimAt k = rest.length + 1 := by
  rw [stacked, bind_eq_ok_iff]
  constructor
  · rintro ⟨⟨⟩, passed, made⟩
    rw [forM_check_eq_ok_iff] at passed
    obtain ⟨k, among, result⟩ := bind_eq_ok_iff.1 made
    obtain ⟨named, same, extent⟩ :=
      Shape.eq_inserted_iff.1 ⟨among, (Except.ok.inj result).symm⟩
    refine ⟨k, named, List.forall_mem_cons.2 ⟨same, fun s member => ?_⟩, extent⟩
    rw [passed s member, same]
  · rintro ⟨k, named, sections, extent⟩
    obtain ⟨same, rest_same⟩ := List.forall_mem_cons.1 sections
    obtain ⟨among, result⟩ := Shape.eq_inserted_iff.2 ⟨named, same, extent⟩
    refine ⟨(), ?_, bind_eq_ok_iff.2 ⟨k, among, congrArg Except.ok result.symm⟩⟩
    rw [forM_check_eq_ok_iff]
    exact fun s member => congrArg Shape.mk ((rest_same s member).symm.trans same)

theorem sum_dimAt_of_ones (ones : ∀ s ∈ shapes, s.dimAt k = 1) :
    (shapes.map (·.dimAt k)).sum = shapes.length := by
  rw [List.map_congr_left ones, List.map_const', List.sum_replicate_nat, Nat.mul_one]

/-- Stacked shapes are joined along the axis that each of them is given. -/
theorem stacked_eq_ok_iff_joins : stacked index first rest = .ok r ↔
    ∃ widened, (first :: rest).mapM (·.unsqueeze index) = .ok widened ∧
      ∃ k, r.axis index = .ok k ∧ Joins k widened r := by
  simp only [stacked_eq_ok_iff, mapM_eq_ok_iff]
  constructor
  · rintro ⟨k, named, sections, extent⟩
    have widen (s : Shape) (member : s ∈ first :: rest) :=
      Shape.unsqueeze_of_others named (sections s member)
    refine ⟨(first :: rest).map (·.inserted k 1), ?_, k, named, ?_, ?_⟩
    · rw [List.map_map]
      exact List.map_congr_left fun s member => (widen s member).1
    · rw [List.forall_mem_map]
      intro s member
      exact ⟨(widen s member).2.1, Shape.others_inserted.trans (sections s member).symm⟩
    · rw [sum_dimAt_of_ones, extent, List.length_map, List.length_cons]
      rw [List.forall_mem_map]
      exact fun s member => (widen s member).2.2
  · rintro ⟨widened, read, k, named, joins⟩
    have source (s w : Shape) (made : s.unsqueeze index = .ok w) (member : w ∈ widened) :
        r.others k = s.dims ∧ w.dimAt k = 1 := by
      obtain ⟨rank_eq, same⟩ := joins.agrees w member
      have named' := (Shape.axis_eq_ok_iff_of_rank rank_eq).2 named
      obtain ⟨without, single⟩ := Shape.others_of_unsqueeze made named'
      exact ⟨same.symm.trans without, single⟩
    refine ⟨k, named, fun s member => ?_, ?_⟩
    · have image := List.mem_map_of_mem (f := (·.unsqueeze index)) member
      rw [read] at image
      obtain ⟨w, member', made⟩ := List.mem_map.1 image
      exact (source s w made.symm member').1
    · have count := congrArg List.length read
      rw [List.length_map, List.length_map, List.length_cons] at count
      rw [joins.extent, sum_dimAt_of_ones, count]
      intro w member
      have image := List.mem_map_of_mem (f := Except.ok (ε := Error)) member
      rw [← read] at image
      obtain ⟨s, _, made⟩ := List.mem_map.1 image
      exact (source s w made member).2

/-! ### Inference -/

theorem shapeOn_cat_eq_ok_iff (some_shape : shapes ≠ []) :
    shapeOn .cat attributes shapes = .ok r ↔
      ∃ k, r.axis (attributes.getInt "dim" 0) = .ok k ∧ Joins k shapes r := by
  obtain ⟨first, rest, rfl⟩ := List.exists_cons_of_ne_nil some_shape
  rw [shapeOn_cons rfl]
  exact concatenated_eq_ok_iff

/-- Stacking is widening each shape and joining the results. -/
theorem shapeOn_stack_eq_ok_iff (some_shape : shapes ≠ []) :
    shapeOn .stack attributes shapes = .ok r ↔
      (shapes.mapM (·.unsqueeze (attributes.getInt "dim" 0)) >>= shapeOn .cat attributes) =
        .ok r := by
  obtain ⟨first, rest, rfl⟩ := List.exists_cons_of_ne_nil some_shape
  have joined : shapeOn .stack attributes (first :: rest) = .ok r ↔
      ∃ widened, (first :: rest).mapM (·.unsqueeze (attributes.getInt "dim" 0)) = .ok widened ∧
        ∃ k, r.axis (attributes.getInt "dim" 0) = .ok k ∧ Joins k widened r := by
    rw [shapeOn_cons rfl]
    exact stacked_eq_ok_iff_joins
  rw [joined, bind_eq_ok_iff]
  apply exists_congr
  intro widened
  apply and_congr_right
  intro read
  have some_widened : widened ≠ [] := by
    rintro rfl
    have count := congrArg List.length (mapM_eq_ok_iff.1 read)
    simp at count
  exact (shapeOn_cat_eq_ok_iff some_widened).symm

/-- Joining in one step is joining two parts and then their results. -/
theorem shapeOn_cat_append (some_x : xs ≠ []) (some_y : ys ≠ []) :
    shapeOn .cat attributes (xs ++ ys) = .ok r ↔
      (do
        let x ← shapeOn .cat attributes xs
        let y ← shapeOn .cat attributes ys
        shapeOn .cat attributes [x, y]) = .ok r := by
  simp only [bind_eq_ok_iff, shapeOn_cat_eq_ok_iff some_x, shapeOn_cat_eq_ok_iff some_y,
    shapeOn_cat_eq_ok_iff (List.append_ne_nil_of_left_ne_nil some_x ys),
    shapeOn_cat_eq_ok_iff (List.cons_ne_nil _ _)]
  constructor
  · rintro ⟨k, named, joins⟩
    obtain ⟨x, y, joins_x, joins_y, joins⟩ :=
      (joins_append_iff (Shape.axis_eq_ok_iff.1 named).1).1 joins
    have rank_x := (joins.agrees x (by simp)).1
    have rank_y := (joins.agrees y (by simp)).1
    exact ⟨x, ⟨k, (Shape.axis_eq_ok_iff_of_rank rank_x).2 named, joins_x⟩,
      y, ⟨k, (Shape.axis_eq_ok_iff_of_rank rank_y).2 named, joins_y⟩, k, named, joins⟩
  · rintro ⟨x, ⟨i, named_x, joins_x⟩, y, ⟨j, named_y, joins_y⟩, k, named, joins⟩
    -- Shapes of one rank have the axis in the same place.
    rw [Shape.axis_eq_ok_iff_of_rank (joins.agrees x (by simp)).1, named] at named_x
    rw [Shape.axis_eq_ok_iff_of_rank (joins.agrees y (by simp)).1, named] at named_y
    cases named_x
    cases named_y
    exact ⟨_, named, (joins_append_iff (Shape.axis_eq_ok_iff.1 named).1).2
      ⟨x, y, joins_x, joins_y, joins⟩⟩

/-- **Stacking and joining agree.** Inference looks at the shapes of the inputs only. Whatever axis
the attributes name, shapes can be stacked if and only if they can be joined after each of them was
given that axis, with one result; and shapes can be joined if and only if both parts of their list
can be joined and then the results of both, again with one result. -/
theorem stack_eq_cat_and_cat_append (attributes : Attributes) :
    (∀ (op : Operation) (given : List Reference), op.inputs = given.map some →
      op.resultShape = shapeOn op.kind op.attributes (given.map Reference.shape)) ∧
    (∀ shapes : List Shape, shapes ≠ [] → ∀ r,
      shapeOn .stack attributes shapes = .ok r ↔
        (shapes.mapM (·.unsqueeze (attributes.getInt "dim" 0)) >>= shapeOn .cat attributes) =
          .ok r) ∧
    (∀ xs ys : List Shape, xs ≠ [] → ys ≠ [] → ∀ r,
      shapeOn .cat attributes (xs ++ ys) = .ok r ↔
        (do
          let x ← shapeOn .cat attributes xs
          let y ← shapeOn .cat attributes ys
          shapeOn .cat attributes [x, y]) = .ok r) :=
  ⟨fun _ _ => resultShape_eq_shapeOn, fun _ some_shape _ => shapeOn_stack_eq_ok_iff some_shape,
    fun _ _ some_x some_y _ => shapeOn_cat_append some_x some_y⟩

/-- The attributes that name the last axis. -/
def lastAxis : Attributes := OrderedMap.empty.put "dim" (.int (-1))

/-- The last axis is a new one for a stack, and may be empty in a join. -/
theorem stack_eq_cat_and_cat_append_lastAxis :
    ([⟨[2, 3]⟩, ⟨[2, 3]⟩].mapM (Shape.unsqueeze · (-1)) >>= shapeOn .cat lastAxis) =
      .ok ⟨[2, 3, 2]⟩ ∧
    (do
      let x ← shapeOn .cat lastAxis [⟨[2, 0]⟩]
      let y ← shapeOn .cat lastAxis [⟨[2, 1]⟩, ⟨[2, 4]⟩]
      shapeOn .cat lastAxis [x, y]) = .ok ⟨[2, 5]⟩ := by
  obtain ⟨_, side_by_side, in_parts⟩ := stack_eq_cat_and_cat_append lastAxis
  exact ⟨(side_by_side [⟨[2, 3]⟩, ⟨[2, 3]⟩] (by decide) _).1 rfl,
    (in_parts [⟨[2, 0]⟩] [⟨[2, 1]⟩, ⟨[2, 4]⟩] (by decide) (by decide) _).1 rfl⟩

end TensorGraph.Operation
