import Mathlib.Data.List.InsertIdx
import TensorGraph.Proofs.Shape.Permutations

/-!
One axis and the others. A shape is known by its extent along one axis and the extents along all
others, and its elements are counted as the product of the two. Axes that are put in, taken out or
joined are described that way, so what becomes of the number of elements is read off at once.
-/

namespace TensorGraph.Shape

variable {s r w : Shape} {count index start stop : Int} {k n first last : Nat}
  {gone : List Nat}

/-- The extents along all axes but one. -/
def others (s : Shape) (k : Nat) : List Nat := s.dims.eraseIdx k

/-! ### Numbers of axes -/

/-- A number names an axis by its place, or by its place counted from the end. -/
theorem axisAmong_eq_ok_iff :
    s.axisAmong count index = .ok k ↔ k < count ∧ (index = k ∨ index + count = k) := by
  rw [axisAmong]
  generalize position_eq : (if index < 0 then index + count else index) = position
  split
  · next outside =>
    have absent : ¬ (k < count ∧ (index = k ∨ index + count = k)) := by
      split at position_eq <;> omega
    simp [absent]
  · next inside =>
    rw [Except.ok.injEq]
    split at position_eq <;> omega

theorem axis_eq_ok_iff :
    s.axis index = .ok k ↔ k < s.rank ∧ (index = k ∨ index + s.rank = k) := by
  rw [axis, axisAmong_eq_ok_iff, Int.ofNat_lt]

/-- Which axis a number names depends on the rank only. -/
theorem axis_eq_ok_iff_of_rank (rank_eq : s.rank = r.rank) :
    s.axis index = .ok k ↔ r.axis index = .ok k := by
  rw [axis_eq_ok_iff, axis_eq_ok_iff, rank_eq]

/-! ### One axis apart -/

theorem length_others (inside : k < s.rank) : (s.others k).length + 1 = s.rank :=
  List.length_eraseIdx_add_one inside

theorem dimAt_eq_getElem (inside : k < s.dims.length) : s.dimAt k = s.dims[k] := by
  rw [dimAt, List.getElem_eq_getD 0]

theorem eq_of_others (inside : k < s.rank) (inside' : k < r.rank)
    (extent : s.dimAt k = r.dimAt k) (same : s.others k = r.others k) : s = r := by
  rw [dimAt_eq_getElem inside, dimAt_eq_getElem inside'] at extent
  have dims_eq : s.dims = r.dims := by
    rw [← List.insertIdx_eraseIdx_getElem inside, ← List.insertIdx_eraseIdx_getElem inside', extent]
    exact congrArg (List.insertIdx · k _) same
  exact congrArg Shape.mk dims_eq

/-- The elements are those of one section, as many times as the axis has places. -/
theorem size_eq_mul (inside : k < s.rank) : s.size = s.dimAt k * product (s.others k) := by
  rw [dimAt_eq_getElem inside, size, others, ← product_cons]
  exact product_eq_of_perm (List.getElem_cons_eraseIdx_perm inside).symm

/-- The shape with another extent along one axis. -/
def resized (s : Shape) (k n : Nat) : Shape := ⟨s.dims.set k n⟩

@[simp] theorem rank_resized : (s.resized k n).rank = s.rank := List.length_set

@[simp] theorem others_resized : (s.resized k n).others k = s.others k := List.eraseIdx_set_eq

theorem dimAt_resized (inside : k < s.rank) : (s.resized k n).dimAt k = n := by
  rw [dimAt_eq_getElem (by rwa [← rank, rank_resized])]
  exact List.getElem_set_self _

theorem dimAt_resized_of_ne {m : Nat} (other : m ≠ k) : (s.resized k n).dimAt m = s.dimAt m := by
  rw [dimAt, resized, List.getD_eq_getElem?_getD, List.getElem?_set_ne other.symm]
  rfl

/-! ### Axes put in and taken out -/

/-- The shape with an axis put in at a place. -/
def inserted (s : Shape) (k n : Nat) : Shape := ⟨s.dims.insertIdx k n⟩

theorem rank_inserted (inside : k ≤ s.rank) : (s.inserted k n).rank = s.rank + 1 :=
  List.length_insertIdx_of_le_length inside n

@[simp] theorem others_inserted : (s.inserted k n).others k = s.dims :=
  List.eraseIdx_insertIdx_self n

theorem dimAt_inserted (inside : k ≤ s.rank) : (s.inserted k n).dimAt k = n := by
  have inside' : k < (s.inserted k n).rank := by
    rw [rank_inserted inside]
    exact Nat.lt_succ_of_le inside
  rw [dimAt_eq_getElem inside']
  exact List.getElem_insertIdx_self inside'

/-- Among the axes of the result, a new axis has the place that was asked for, and without it the
result is what was there before. -/
theorem eq_inserted_iff : s.axisAmong (s.rank + 1) index = .ok k ∧ w = s.inserted k n ↔
    w.axis index = .ok k ∧ w.others k = s.dims ∧ w.dimAt k = n := by
  rw [axisAmong_eq_ok_iff, axis_eq_ok_iff]
  constructor
  · rintro ⟨⟨inside, named⟩, rfl⟩
    have inside' : k ≤ s.rank := by omega
    have rank_eq : (s.inserted k n).rank = s.rank + 1 := rank_inserted inside'
    exact ⟨⟨by omega, by omega⟩, others_inserted, dimAt_inserted inside'⟩
  · rintro ⟨⟨inside, named⟩, same, extent⟩
    have rank_eq : s.rank + 1 = w.rank := by
      rw [← length_others inside, same, rank]
    have inside' : k ≤ s.rank := by omega
    refine ⟨⟨by omega, by omega⟩, ?_⟩
    apply eq_of_others inside
    · rw [rank_inserted inside']
      omega
    · rw [extent, dimAt_inserted inside']
    · rw [same, others_inserted]

theorem unsqueeze_eq_ok_iff : s.unsqueeze index = .ok w ↔
    ∃ k, w.axis index = .ok k ∧ w.others k = s.dims ∧ w.dimAt k = 1 := by
  simp only [← eq_inserted_iff]
  rw [unsqueeze, bind_eq_ok_iff]
  simp only [pure_eq_ok, Except.ok.injEq, eq_comm, inserted]

/-- A shape that is left when an axis is taken out can be given that axis anew. -/
theorem unsqueeze_of_others (named : r.axis index = .ok k) (same : r.others k = s.dims) :
    s.unsqueeze index = .ok (s.inserted k 1) ∧ (s.inserted k 1).rank = r.rank ∧
      (s.inserted k 1).dimAt k = 1 := by
  obtain ⟨among, _⟩ := eq_inserted_iff.2 ⟨named, same, rfl⟩
  have bound := (axis_eq_ok_iff.1 named).1
  have rank_eq := length_others bound
  rw [same] at rank_eq
  have inside : k ≤ s.rank := by
    rw [rank]
    omega
  exact ⟨unsqueeze_eq_ok_iff.2 ⟨k, eq_inserted_iff.1 ⟨among, rfl⟩⟩,
    (rank_inserted inside).trans rank_eq, dimAt_inserted inside⟩

theorem others_of_unsqueeze (made : s.unsqueeze index = .ok w) (named : w.axis index = .ok k) :
    w.others k = s.dims ∧ w.dimAt k = 1 := by
  obtain ⟨k', named', rest⟩ := unsqueeze_eq_ok_iff.1 made
  rw [named'] at named
  cases named
  exact rest

theorem size_unsqueeze (made : s.unsqueeze index = .ok r) : r.size = s.size := by
  obtain ⟨k, named, same, extent⟩ := unsqueeze_eq_ok_iff.1 made
  rw [size_eq_mul (axis_eq_ok_iff.1 named).1, same, extent, Nat.one_mul, size]

/-- An axis is taken out if it has one place. -/
theorem squeeze_eq_ok_iff : s.squeeze index = .ok r ↔
    ∃ k, s.axis index = .ok k ∧ r = if s.dimAt k = 1 then ⟨s.others k⟩ else s := by
  rw [squeeze, bind_eq_ok_iff]
  simp only [pure_eq_ok, Except.ok.injEq, eq_comm, others]

theorem size_squeeze (made : s.squeeze index = .ok r) : r.size = s.size := by
  obtain ⟨k, named, rfl⟩ := squeeze_eq_ok_iff.1 made
  split
  · next single =>
    rw [size_eq_mul (s := s) (axis_eq_ok_iff.1 named).1, single, Nat.one_mul]
    rfl
  · rfl

theorem size_squeezeAll (s : Shape) : s.squeezeAll.size = s.size := by
  rcases s with ⟨dims⟩
  simp only [size, squeezeAll]
  induction dims with
  | nil => rfl
  | cons d dims ih =>
    by_cases single : d = 1
    · rw [List.filter_cons_of_neg (by simpa using single), ih, single, product_cons, Nat.one_mul]
    · rw [List.filter_cons_of_pos (by simpa using single), product_cons, ih, product_cons]

/-! ### Several axes taken out -/

/-- The shape without some of its axes. -/
def without (s : Shape) (gone : List Nat) : Shape :=
  ⟨((List.range s.rank).filter (· ∉ gone)).map s.dimAt⟩

/-- The place that an axis has when others are gone. -/
def placeWithout (gone : List Nat) (k : Nat) : Nat := ((List.range k).filter (· ∉ gone)).length

theorem without_nil (s : Shape) : s.without [] = s := by
  rw [without, List.filter_eq_self.2 (by simp), map_dimAt_range]

theorem placeWithout_of_le (above : ∀ g ∈ gone, k ≤ g) : placeWithout gone k = k := by
  have all : (List.range k).filter (· ∉ gone) = List.range k := by
    apply List.filter_eq_self.2
    intro x member
    have below := List.mem_range.1 member
    simp only [decide_eq_true_eq]
    intro listed
    exact absurd (above x listed) (Nat.not_le.2 below)
  rw [placeWithout, all, List.length_range]

theorem placeWithout_singleton {i j : Nat} (before : i < j) : placeWithout [i] j = j - 1 := by
  have fewer : (List.range j).filter (· ∉ [i]) = (List.range j).erase i := by
    rw [List.nodup_range.erase_eq_filter]
    apply List.filter_congr
    intro x _
    grind
  rw [placeWithout, fewer, List.length_erase_of_mem (List.mem_range.2 before), List.length_range]

/-- Of the numbers of axes that are left, one stands behind as many as are left before it. -/
theorem range_filter_eq (inside : k < n) (left : k ∉ gone) :
    (List.range n).filter (· ∉ gone) = (List.range k).filter (· ∉ gone) ++
      (k :: ((List.range (n - (k + 1))).map (k + 1 + ·)).filter (· ∉ gone)) := by
  have count : n = k + 1 + (n - (k + 1)) := by omega
  have numbers : List.range n =
      List.range k ++ (k :: (List.range (n - (k + 1))).map (k + 1 + ·)) := by
    rw [count, List.range_add, List.range_succ, List.append_assoc, ← count]
    rfl
  rw [numbers, List.filter_append, List.filter_cons_of_pos (by simpa using left)]

theorem placeWithout_lt (inside : k < s.rank) (left : k ∉ gone) :
    placeWithout gone k < (s.without gone).rank := by
  rw [rank, without, List.length_map, range_filter_eq inside left, List.length_append, placeWithout,
    List.length_cons]
  omega

theorem dimAt_without (inside : k < s.rank) (left : k ∉ gone) :
    (s.without gone).dimAt (placeWithout gone k) = s.dimAt k := by
  rw [dimAt, without, range_filter_eq inside left, placeWithout, List.map_append, List.map_cons,
    ← List.length_map (f := s.dimAt)]
  simp

/-- An axis is taken out at the place that it has by then. -/
theorem others_without (inside : k < s.rank) (left : k ∉ gone) :
    (s.without gone).others (placeWithout gone k) = (s.without (k :: gone)).dims := by
  have before : k ∉ (List.range k).filter (· ∉ gone) := by simp
  have fewer : (List.range s.rank).filter (· ∉ k :: gone) =
      ((List.range s.rank).filter (· ∉ gone)).erase k := by
    rw [(List.nodup_range.filter _).erase_eq_filter, List.filter_filter]
    apply List.filter_congr
    intro x _
    grind
  rw [others, without, without, List.eraseIdx_map, fewer, range_filter_eq inside left,
    List.erase_append_right _ before, List.erase_cons_head, placeWithout,
    List.eraseIdx_append_of_length_le (Nat.le_refl _), Nat.sub_self, List.eraseIdx_zero,
    List.tail_cons]

theorem without_singleton (inside : k < s.rank) : s.without [k] = ⟨s.others k⟩ := by
  have taken := others_without inside (List.not_mem_nil : k ∉ [])
  rw [without_nil, placeWithout_of_le (by simp)] at taken
  exact congrArg Shape.mk taken.symm

theorem without_swap (s : Shape) (i j : Nat) : s.without [i, j] = s.without [j, i] := by
  have same (k : Nat) : k ∈ [i, j] ↔ k ∈ [j, i] := by simp [or_comm]
  rw [without, without, List.filter_congr fun k _ => decide_eq_decide.2 (not_congr (same k))]

/-- A shape is another one with one place along some of the axes. -/
structure Shrinks (gone : List Nat) (s w : Shape) : Prop where
  rank_eq : w.rank = s.rank
  dimAt_eq : ∀ k < s.rank, w.dimAt k = if k ∈ gone then 1 else s.dimAt k

theorem Shrinks.resized (shrinks : Shrinks gone s w) (inside : k < s.rank) :
    Shrinks (k :: gone) s (w.resized k 1) where
  rank_eq := rank_resized.trans shrinks.rank_eq
  dimAt_eq m inside' := by
    by_cases same : m = k
    · subst same
      rw [dimAt_resized (shrinks.rank_eq ▸ inside), if_pos List.mem_cons_self]
    · rw [dimAt_resized_of_ne same, shrinks.dimAt_eq m inside']
      simp [same]

/-- What is left without the axes that have shrunk does not tell that they have. -/
theorem Shrinks.without_eq (shrinks : Shrinks gone s w) : w.without gone = s.without gone := by
  have same : ∀ k ∈ (List.range s.rank).filter (· ∉ gone), w.dimAt k = s.dimAt k := by
    intro k member
    obtain ⟨listed, left⟩ := List.mem_filter.1 member
    rw [shrinks.dimAt_eq k (List.mem_range.1 listed), if_neg (of_decide_eq_true left)]
  rw [without, without, shrinks.rank_eq, List.map_congr_left same]

/-- A squeeze takes an axis out at the place that it has when others are gone. -/
theorem squeeze_without (inside : k < s.rank) (left : k ∉ gone) (single : s.dimAt k = 1) :
    (s.without gone).squeeze (placeWithout gone k) = .ok (s.without (k :: gone)) := by
  refine squeeze_eq_ok_iff.2 ⟨placeWithout gone k, ?_, ?_⟩
  · exact axis_eq_ok_iff.2 ⟨placeWithout_lt inside left, .inl rfl⟩
  · rw [if_pos ((dimAt_without inside left).trans single), others_without inside left]

/-! ### Axes joined -/

theorem product_append (dims dims' : List Nat) :
    product (dims ++ dims') = product dims * product dims' := by
  induction dims with
  | nil => simp
  | cons d dims ih => simp [ih, Nat.mul_assoc]

/-- Two numbers name the first and the last axis of a range. -/
structure NamesRange (s : Shape) (start stop : Int) (first last : Nat) : Prop where
  ordered : first ≤ last
  inside : last < s.rank
  start_eq : start = first ∨ start + s.rank = first
  stop_eq : stop = last ∨ stop + s.rank = last

/-- The extents along a range of axes. -/
def along (s : Shape) (first last : Nat) : List Nat := (s.dims.drop first).take (last + 1 - first)

/-- The shape with one axis for a range of axes. -/
def joined (s : Shape) (first last : Nat) : Shape :=
  ⟨s.dims.take first ++ product (s.along first last) :: s.dims.drop (last + 1)⟩

theorem namesRange_iff : s.NamesRange start stop first last ↔
    s.axis start = .ok first ∧ s.axis stop = .ok last ∧ first ≤ last := by
  rw [axis_eq_ok_iff, axis_eq_ok_iff]
  constructor
  · exact fun names => ⟨⟨Nat.lt_of_le_of_lt names.ordered names.inside, names.start_eq⟩,
      ⟨names.inside, names.stop_eq⟩, names.ordered⟩
  · exact fun ⟨from_start, to_stop, ordered⟩ => ⟨ordered, to_stop.1, from_start.2, to_stop.2⟩

theorem flatten_eq_ok_iff : s.flatten start stop = .ok r ↔
    ∃ first last, s.NamesRange start stop first last ∧ r = s.joined first last := by
  simp only [flatten, bind_eq_ok_iff, namesRange_iff]
  constructor
  · rintro ⟨first, from_start, last, to_stop, made⟩
    split at made
    · cases made
    · next ordered =>
      cases made
      exact ⟨first, last, ⟨from_start, to_stop, by omega⟩, rfl⟩
  · rintro ⟨first, last, ⟨from_start, to_stop, ordered⟩, rfl⟩
    exact ⟨first, from_start, last, to_stop, if_neg (by omega)⟩

/-- The extents before a range, along it and behind it. -/
theorem dims_eq_append (ordered : first ≤ last) :
    s.dims = s.dims.take first ++ (s.along first last ++ s.dims.drop (last + 1)) := by
  have behind : s.dims.drop (last + 1) = (s.dims.drop first).drop (last + 1 - first) := by
    rw [List.drop_drop]
    congr 1
    omega
  rw [along, behind, List.take_append_drop, List.take_append_drop]

theorem size_joined (ordered : first ≤ last) : (s.joined first last).size = s.size := by
  calc product (s.dims.take first ++ product (s.along first last) :: s.dims.drop (last + 1))
      = product (s.dims.take first ++ (s.along first last ++ s.dims.drop (last + 1))) := by
        rw [product_append, product_cons, ← product_append, ← product_append]
    _ = s.size := by rw [← dims_eq_append ordered, size]

theorem size_flatten (made : s.flatten start stop = .ok r) : r.size = s.size := by
  obtain ⟨first, last, names, rfl⟩ := flatten_eq_ok_iff.1 made
  exact size_joined names.ordered

end TensorGraph.Shape
