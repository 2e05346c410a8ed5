import TensorGraph.Proofs.Shape.Axes
import TensorGraph.Proofs.Shape.Reshaping

/-!
Rewritings that can be taken back. An axis of extent one that was put in is taken out again by the
same number, and makes no difference to a shape that is left without such axes. Axes that were joined
come back by reshaping. Joining is itself a reshaping that leaves one extent open, as long as the
extents outside of the range tell what it has to be.
-/

namespace TensorGraph.Shape

variable {s r w : Shape} {count index start stop : Int} {k first last : Nat}

/-! ### Axes of extent one -/

/-- A number names an axis if it lies in the range of positions, counted from either end. -/
theorem exists_axisAmong_iff :
    (∃ k, s.axisAmong count index = .ok k) ↔ -count ≤ index ∧ index < count := by
  simp only [axisAmong_eq_ok_iff]
  constructor
  · rintro ⟨k, inside, named⟩
    omega
  · rintro ⟨low, high⟩
    by_cases counted : index < 0
    · exact ⟨(index + count).toNat, by omega, by omega⟩
    · exact ⟨index.toNat, by omega, by omega⟩

theorem exists_unsqueeze_iff :
    (∃ w, s.unsqueeze index = .ok w) ↔ -(s.rank + 1 : Int) ≤ index ∧ index < s.rank + 1 := by
  rw [← exists_axisAmong_iff (s := s)]
  constructor
  · rintro ⟨w, made⟩
    obtain ⟨k, parts⟩ := unsqueeze_eq_ok_iff.1 made
    exact ⟨k, (eq_inserted_iff.2 parts).1⟩
  · rintro ⟨k, named⟩
    exact ⟨_, unsqueeze_eq_ok_iff.2 ⟨k, eq_inserted_iff.1 ⟨named, rfl⟩⟩⟩

theorem exists_squeeze_iff :
    (∃ r, s.squeeze index = .ok r) ↔ -(s.rank : Int) ≤ index ∧ index < s.rank := by
  rw [← exists_axisAmong_iff (s := s)]
  constructor
  · rintro ⟨r, made⟩
    obtain ⟨k, named, _⟩ := squeeze_eq_ok_iff.1 made
    exact ⟨k, named⟩
  · rintro ⟨k, named⟩
    exact ⟨_, squeeze_eq_ok_iff.2 ⟨k, named, rfl⟩⟩

/-- The number that put an axis in takes it out again. -/
theorem squeeze_of_unsqueeze (made : s.unsqueeze index = .ok w) : w.squeeze index = .ok s := by
  obtain ⟨k, named, same, extent⟩ := unsqueeze_eq_ok_iff.1 made
  exact squeeze_eq_ok_iff.2 ⟨k, named, by rw [if_pos extent, same]⟩

/-- An axis of extent one does not outlast the removal of all of these. -/
theorem squeezeAll_of_others (inside : k < w.dims.length) (single : w.dimAt k = 1)
    (same : w.others k = s.dims) : w.squeezeAll = s.squeezeAll := by
  have there : w.dims[k] = 1 := (dimAt_eq_getElem inside).symm.trans single
  have parts : w.dims = w.dims.take k ++ 1 :: w.dims.drop (k + 1) := by
    have split := List.take_append_drop k w.dims
    rwa [List.drop_eq_getElem_cons inside, there, eq_comm] at split
  have kept : s.dims = w.dims.take k ++ w.dims.drop (k + 1) := by
    rw [← same, others, List.eraseIdx_eq_take_drop_succ]
  have filtered : w.dims.filter (· ≠ 1) = s.dims.filter (· ≠ 1) := by
    rw [parts, kept, List.filter_append, List.filter_append, List.filter_cons_of_neg (by simp)]
  exact congrArg Shape.mk filtered

theorem squeezeAll_unsqueeze (made : s.unsqueeze index = .ok w) :
    w.squeezeAll = s.squeezeAll := by
  obtain ⟨k, named, same, extent⟩ := unsqueeze_eq_ok_iff.1 made
  exact squeezeAll_of_others (axis_eq_ok_iff.1 named).1 extent same

theorem squeezeAll_squeeze (made : s.squeeze index = .ok r) : r.squeezeAll = s.squeezeAll := by
  obtain ⟨k, named, rfl⟩ := squeeze_eq_ok_iff.1 made
  split
  · next single => exact (squeezeAll_of_others (axis_eq_ok_iff.1 named).1 single rfl).symm
  · rfl

theorem squeezeAll_squeezeAll (s : Shape) : s.squeezeAll.squeezeAll = s.squeezeAll := by
  simp [squeezeAll]

/-! ### Axes joined -/

/-- The extents before and behind a range of axes. -/
def outside (s : Shape) (first last : Nat) : List Nat :=
  s.dims.take first ++ s.dims.drop (last + 1)

/-- The extents of a shape as a target that leaves one extent open for a range of axes. -/
def opened (s : Shape) (first last : Nat) : List Int :=
  (s.dims.take first).map Int.ofNat ++ -1 :: (s.dims.drop (last + 1)).map Int.ofNat

theorem notMem_map_ofNat (dims : List Nat) : -1 ∉ dims.map Int.ofNat := by simp

theorem count_opened : (s.opened first last).count (-1) = 1 := by
  rw [opened, List.count_append, List.count_cons_self,
    List.count_eq_zero.2 (notMem_map_ofNat _), List.count_eq_zero.2 (notMem_map_ofNat _)]

theorem erase_opened :
    (s.opened first last).erase (-1) = (s.outside first last).map Int.ofNat := by
  rw [opened, List.erase_append_right _ (notMem_map_ofNat _), List.erase_cons_head, outside,
    List.map_append]

theorem prod_erase_opened :
    ((s.opened first last).erase (-1)).prod = product (s.outside first last) := by
  rw [erase_opened, natCast_product]

theorem size_eq_along_mul_outside (ordered : first ≤ last) :
    s.size = product (s.along first last) * product (s.outside first last) := by
  calc s.size = product (s.dims.take first) *
        (product (s.along first last) * product (s.dims.drop (last + 1))) := by
        rw [← product_append, ← product_append, ← dims_eq_append ordered, size]
    _ = product (s.along first last) * product (s.outside first last) := by
        rw [outside, product_append, Nat.mul_left_comm]

theorem completed_opened (ordered : first ≤ last) (told : product (s.outside first last) ≠ 0) :
    completed (s.opened first last) s.size = s.joined first last := by
  have extent : ((s.size : Int) / ((s.opened first last).erase (-1)).prod).toNat =
      product (s.along first last) := by
    rw [prod_erase_opened, size_eq_along_mul_outside ordered, ← Int.natCast_ediv,
      Nat.mul_div_cancel _ (Nat.pos_of_ne_zero told), Int.toNat_natCast]
  have filled_opened (n : Nat) : filled (s.opened first last) n =
      s.dims.take first ++ n :: s.dims.drop (last + 1) := by
    have before := filled_map_ofNat (s.dims.take first) n
    have behind := filled_map_ofNat (s.dims.drop (last + 1)) n
    rw [filled] at before behind ⊢
    rw [opened, List.map_append, List.map_cons, before, behind, if_pos rfl]
  rw [completed, extent, filled_opened, joined]

theorem le_of_mem_opened : ∀ d ∈ s.opened first last, -1 ≤ d := by
  have natural (dims : List Nat) : ∀ d ∈ dims.map Int.ofNat, -1 ≤ d := by
    intro d member
    obtain ⟨n, _, rfl⟩ := List.mem_map.1 member
    exact Int.le_trans (by decide) (Int.natCast_nonneg n)
  intro d member
  rw [opened, List.mem_append, List.mem_cons] at member
  rcases member with before | rfl | behind
  · exact natural _ d before
  · exact Int.le_refl _
  · exact natural _ d behind

/-- The extents outside of a range always divide the number of elements, so all that can go wrong is
that they are zero. -/
theorem takes_opened_iff (ordered : first ≤ last) :
    Takes (s.opened first last) s.size ↔ product (s.outside first last) ≠ 0 := by
  have open_mem : -1 ∈ s.opened first last := List.count_pos_iff.1 (by rw [count_opened]; decide)
  have divides : (product (s.outside first last) : Int) ∣ s.size := by
    rw [size_eq_along_mul_outside ordered]
    exact Int.natCast_dvd_natCast.2 (Nat.dvd_mul_left _ _)
  rw [Takes, prod_erase_opened, count_opened]
  simp only [open_mem, not_true_eq_false, false_and, false_or, true_and, divides, and_true,
    Int.natCast_ne_zero]
  exact and_iff_right le_of_mem_opened

/-- With one extent open for a range of axes, reshaping joins these, and needs to know the extent. -/
theorem reshape_opened_eq_ok_iff (ordered : first ≤ last) :
    s.reshape (s.opened first last) = .ok r ↔
      product (s.outside first last) ≠ 0 ∧ r = s.joined first last := by
  rw [reshape_eq_ok_iff, takes_opened_iff ordered]
  apply and_congr_right
  intro told
  rw [completed_opened ordered told]

/-- **Rewritings that are taken back.** An axis of extent one can be put in by the numbers that name a
place for it, counted from either end, and the same number takes it out again. Removing all axes of
extent one once is enough, whether or not one was put in or taken out before. None of this changes the
number of elements. Axes are joined if two numbers name the ends of a range; then the first shape can
be had back by reshaping, and joining is the reshaping that leaves the extent of the range open, just
if no extent outside of it is zero. -/
theorem rewritings_undone (s : Shape) :
    (∀ index : Int, -(s.rank + 1 : Int) ≤ index → index ≤ s.rank →
      ∃ w, s.unsqueeze index = .ok w ∧ w.squeeze index = .ok s ∧
        w.squeezeAll = s.squeezeAll ∧ w.size = s.size) ∧
    (∀ index : Int, -(s.rank : Int) ≤ index → index < s.rank →
      ∃ r, s.squeeze index = .ok r ∧ r.squeezeAll = s.squeezeAll ∧ r.size = s.size) ∧
    s.squeezeAll.squeezeAll = s.squeezeAll ∧ s.squeezeAll.size = s.size ∧
    ∀ start stop,
      ((∃ r, s.flatten start stop = .ok r) ↔ ∃ first last, s.NamesRange start stop first last) ∧
      ∀ r, s.flatten start stop = .ok r →
        r.reshape (s.dims.map Int.ofNat) = .ok s ∧
        ∃ first last, s.NamesRange start stop first last ∧ r = s.joined first last ∧
          (product (s.outside first last) ≠ 0 ↔ s.reshape (s.opened first last) = .ok r) := by
  refine ⟨fun index low high => ?unsqueezed, fun index low high => ?squeezed,
    squeezeAll_squeezeAll s, size_squeezeAll s, fun start stop => ⟨?accepted, fun r made => ?joined⟩⟩
  case unsqueezed =>
    obtain ⟨w, made⟩ := exists_unsqueeze_iff.2 ⟨low, Int.lt_add_one_of_le high⟩
    exact ⟨w, made, squeeze_of_unsqueeze made, squeezeAll_unsqueeze made, size_unsqueeze made⟩
  case squeezed =>
    obtain ⟨r, made⟩ := exists_squeeze_iff.2 ⟨low, high⟩
    exact ⟨r, made, squeezeAll_squeeze made, size_squeeze made⟩
  case accepted =>
    simp only [flatten_eq_ok_iff]
    constructor
    · rintro ⟨r, first, last, names, rfl⟩
      exact ⟨first, last, names⟩
    · rintro ⟨first, last, names⟩
      exact ⟨_, first, last, names, rfl⟩
  case joined =>
    refine ⟨reshape_dims (size_flatten made), ?_⟩
    obtain ⟨first, last, names, rfl⟩ := flatten_eq_ok_iff.1 made
    refine ⟨first, last, names, rfl, ?_⟩
    rw [reshape_opened_eq_ok_iff names.ordered]
    exact (and_iff_left rfl).symm

/-- Numbers below zero name the last of four axes when one is put in, and the last two of three when
these are joined. -/
theorem rewritings_undone_fromEnd :
    unsqueeze ⟨[2, 3, 4]⟩ (-1) = .ok ⟨[2, 3, 4, 1]⟩ ∧
    squeeze ⟨[2, 3, 4, 1]⟩ (-1) = .ok ⟨[2, 3, 4]⟩ ∧
    flatten ⟨[2, 3, 4]⟩ (-2) (-1) = .ok ⟨[2, 12]⟩ ∧
    reshape ⟨[2, 12]⟩ [2, 3, 4] = .ok ⟨[2, 3, 4]⟩ ∧
    reshape ⟨[2, 3, 4]⟩ [2, -1] = .ok ⟨[2, 12]⟩ := by
  have added : unsqueeze ⟨[2, 3, 4]⟩ (-1) = .ok ⟨[2, 3, 4, 1]⟩ := rfl
  have collapsed : flatten ⟨[2, 3, 4]⟩ (-2) (-1) = .ok ⟨[2, 12]⟩ := rfl
  obtain ⟨put_in, _, _, _, join⟩ := rewritings_undone ⟨[2, 3, 4]⟩
  obtain ⟨w, made, taken_out, _⟩ := put_in (-1) (by decide) (by decide)
  cases added.symm.trans made
  obtain ⟨back, first, last, names, _, as_reshape⟩ := (join (-2) (-1)).2 _ collapsed
  have first_eq : first = 1 := by
    have named := names.start_eq
    simp only [rank, List.length_cons, List.length_nil] at named
    omega
  have last_eq : last = 2 := by
    have named := names.stop_eq
    simp only [rank, List.length_cons, List.length_nil] at named
    omega
  subst first_eq last_eq
  exact ⟨added, taken_out, collapsed, back, as_reshape.1 (by decide)⟩

end TensorGraph.Shape
