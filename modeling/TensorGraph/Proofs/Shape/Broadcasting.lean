import Mathlib.Data.List.Basic
import TensorGraph.Shape.Broadcast

/-!
What stretching keeps. Shapes are read from the last axis, and axes that are missing in front have
extent one; read so, two shapes fit axis by axis, and the shape to which they stretch is known axis
by axis. An axis should get the one extent that is not one. It gets the larger of the two, and the
two rules part where an axis without elements would meet one of extent one.
-/

namespace TensorGraph.Shape

variable {a b c t : Shape} {as bs : List Nat} {i x : Nat}

/-- The extent that stands this far from the last axis, if the shape has so many axes. -/
def fromEnd? (s : Shape) (i : Nat) : Option Nat := s.dims.reverse[i]?

/-- The extent that stands there, where axes that are missing have extent one. -/
def fromEnd (s : Shape) (i : Nat) : Nat := (s.fromEnd? i).getD 1

/-! ### Shapes read from the last axis -/

theorem fromEnd?_eq_some_iff : a.fromEnd? i = some x ↔ i < a.rank ∧ a.fromEnd i = x := by
  have rank_eq : a.rank = a.dims.reverse.length := List.length_reverse.symm
  rw [fromEnd, fromEnd?, rank_eq]
  generalize a.dims.reverse = extents
  by_cases inside : i < extents.length
  · simp [inside]
  · simp [inside]

/-- In front of all axes there are only missing ones. -/
theorem fromEnd_of_rank_le (outside : a.rank ≤ i) : a.fromEnd i = 1 := by
  have none_there : a.dims.reverse[i]? = none := by
    rw [List.getElem?_eq_none_iff, List.length_reverse]
    exact outside
  rw [fromEnd, fromEnd?, none_there, Option.getD_none]

/-- A shape is known by its rank and its extents. -/
theorem eq_of_fromEnd (rank_eq : a.rank = b.rank) (extents : ∀ i, a.fromEnd i = b.fromEnd i) :
    a = b := by
  rcases a with ⟨as⟩
  rcases b with ⟨bs⟩
  have same : as.reverse = bs.reverse := by
    apply List.ext_getElem?
    intro i
    apply Option.ext
    intro x
    have left := fromEnd?_eq_some_iff (a := ⟨as⟩) (i := i) (x := x)
    have right := fromEnd?_eq_some_iff (a := ⟨bs⟩) (i := i) (x := x)
    rw [rank_eq, extents i, ← right] at left
    exact left
  rw [List.reverse_injective same]

/-- Where there are two axes, the extents begin with those two from behind. -/
theorem exists_reverse_eq (wide : 2 ≤ a.rank) :
    ∃ front, a.dims.reverse = a.fromEnd 0 :: a.fromEnd 1 :: front := by
  rw [rank, ← List.length_reverse] at wide
  rw [fromEnd, fromEnd, fromEnd?, fromEnd?]
  match a.dims.reverse, wide with
  | _ :: _ :: front, _ => exact ⟨front, rfl⟩

/-! ### Aligned extents -/

theorem length_aligned : (aligned as bs).length = max as.length bs.length := by
  induction as generalizing bs with
  | nil => simp [aligned]
  | cons a as ih =>
    cases bs with
    | nil => simp [aligned, ih]
    | cons b bs => simp [aligned, ih, Nat.succ_max_succ]

theorem getElem?_aligned (inside : i < max as.length bs.length) :
    (aligned as bs)[i]? = some (as[i]?.getD 1, bs[i]?.getD 1) := by
  induction as generalizing bs i with
  | nil =>
    have inside' : i < bs.length := by simpa using inside
    simp [aligned, List.getElem?_eq_getElem inside']
  | cons a as ih =>
    cases bs with
    | nil =>
      cases i with
      | zero => simp [aligned]
      | succ i =>
        have inside' : i < max as.length 0 := by simpa using inside
        simpa [aligned] using @ih [] i inside'
    | cons b bs =>
      cases i with
      | zero => simp [aligned]
      | succ i =>
        have inside' : i < max as.length bs.length := by simpa using inside
        simpa [aligned] using ih inside'

/-- Aligned shapes are the pairs of their extents, as far as one of them has axes. -/
theorem align_eq (a b : Shape) : align a b =
    (List.range (max a.rank b.rank)).map fun i => (a.fromEnd i, b.fromEnd i) := by
  have count_eq : max a.dims.reverse.length b.dims.reverse.length = max a.rank b.rank := by
    rw [List.length_reverse, List.length_reverse, rank, rank]
  apply List.ext_getElem?
  intro i
  by_cases inside : i < max a.rank b.rank
  · rw [align, getElem?_aligned (by rwa [count_eq]), List.getElem?_map, List.getElem?_range inside]
    rfl
  · have outside : max a.rank b.rank ≤ i := Nat.le_of_not_lt inside
    rw [List.getElem?_eq_none (by rwa [align, length_aligned, count_eq]),
      List.getElem?_eq_none (by rwa [List.length_map, List.length_range])]

/-- Two extents fit: they are equal, or one of them is one. -/
def Fit (x y : Nat) : Prop := x = y ∨ x = 1 ∨ y = 1

theorem isBroadcastable_iff :
    isBroadcastable a b = true ↔ ∀ i, Fit (a.fromEnd i) (b.fromEnd i) := by
  have fits_iff (pair : Nat × Nat) : fits pair = true ↔ Fit pair.1 pair.2 := by
    simp [fits, Fit, or_assoc]
  simp only [isBroadcastable, align_eq, List.all_map, List.all_eq_true, Function.comp_apply,
    fits_iff, List.mem_range]
  constructor
  · intro all i
    by_cases inside : i < max a.rank b.rank
    · exact all i inside
    · left
      rw [fromEnd_of_rank_le (by omega : a.rank ≤ i), fromEnd_of_rank_le (by omega : b.rank ≤ i)]
  · exact fun all i _ => all i

/-! ### Results -/

/-- The larger one of any two aligned extents. -/
def stretched (a b : Shape) : Shape := ⟨((align a b).map fun pair => max pair.1 pair.2).reverse⟩

theorem rank_stretched (a b : Shape) : (stretched a b).rank = max a.rank b.rank := by
  rw [stretched, rank, align_eq, List.length_reverse, List.length_map, List.length_map,
    List.length_range]

theorem fromEnd_stretched (a b : Shape) (i : Nat) :
    (stretched a b).fromEnd i = max (a.fromEnd i) (b.fromEnd i) := by
  by_cases inside : i < max a.rank b.rank
  · rw [fromEnd, fromEnd?, stretched, List.reverse_reverse, align_eq, List.map_map,
      List.getElem?_map, List.getElem?_range inside]
    rfl
  · have outside : (stretched a b).rank ≤ i := by
      rw [rank_stretched]
      exact Nat.le_of_not_lt inside
    rw [fromEnd_of_rank_le outside, fromEnd_of_rank_le (by omega : a.rank ≤ i),
      fromEnd_of_rank_le (by omega : b.rank ≤ i), Nat.max_self]

theorem broadcast_eq_ok_iff : broadcast a b = .ok c ↔
    (∀ i, Fit (a.fromEnd i) (b.fromEnd i)) ∧ stretched a b = c := by
  rw [broadcast, ← isBroadcastable_iff]
  split
  · next fit => simp [fit, stretched]
  · next unfit => simp [unfit]

theorem broadcastTo_eq_ok_iff : broadcastTo a t = .ok c ↔
    c = t ∧ (∀ i, Fit (a.fromEnd i) (t.fromEnd i)) ∧ stretched a t = t := by
  rw [← isBroadcastable_iff, broadcastTo]
  split
  · next fit =>
    have made : broadcast a t = .ok (stretched a t) := if_pos fit
    rw [made, ok_bind]
    split
    · next same => simp [fit, same, eq_comm]
    · next other => simp [other]
  · next unfit => simp [unfit]

theorem stretched_eq_iff : stretched a t = t ↔
    a.rank ≤ t.rank ∧ ∀ i, max (a.fromEnd i) (t.fromEnd i) = t.fromEnd i := by
  constructor
  · intro same
    have rank_eq := rank_stretched a t
    rw [same] at rank_eq
    refine ⟨by omega, fun i => ?_⟩
    rw [← fromEnd_stretched, same]
  · intro above
    rcases above with ⟨rank_le, extents⟩
    apply eq_of_fromEnd
    · rw [rank_stretched, Nat.max_eq_right rank_le]
    · exact fun i => (fromEnd_stretched a t i).trans (extents i)

theorem exists_broadcastTo_iff : (∃ c, broadcastTo a t = .ok c) ↔
    a.rank ≤ t.rank ∧ ∀ i, Fit (a.fromEnd i) (t.fromEnd i) ∧
      max (a.fromEnd i) (t.fromEnd i) = t.fromEnd i := by
  simp only [broadcastTo_eq_ok_iff, stretched_eq_iff, exists_eq_left, forall_and]
  exact and_left_comm

/-! ### Extents of zero -/

/-- An axis that has an extent other than one has the same extent in the other shape. -/
def Keeps (a c : Shape) (i : Nat) : Prop :=
  ∀ x, a.fromEnd? i = some x → x = 1 ∨ c.fromEnd? i = some x

/-- An extent of zero stands beside an extent of one, or beside a missing axis. -/
def Clash (a b : Shape) (i : Nat) : Prop :=
  (a.fromEnd i = 0 ∧ b.fromEnd i = 1) ∨ (a.fromEnd i = 1 ∧ b.fromEnd i = 0)

theorem keeps_iff (rank_le : a.rank ≤ c.rank) :
    Keeps a c i ↔ a.fromEnd i = 1 ∨ c.fromEnd i = a.fromEnd i := by
  constructor
  · intro keeps
    by_cases inside : i < a.rank
    · rcases keeps _ (fromEnd?_eq_some_iff.2 ⟨inside, rfl⟩) with one | same
      · exact .inl one
      · exact .inr (fromEnd?_eq_some_iff.1 same).2
    · exact .inl (fromEnd_of_rank_le (Nat.le_of_not_lt inside))
  · intro either x there
    obtain ⟨inside, rfl⟩ := fromEnd?_eq_some_iff.1 there
    exact either.imp_right fun same =>
      fromEnd?_eq_some_iff.2 ⟨Nat.lt_of_lt_of_le inside rank_le, same⟩

/-- Where no axis is empty, a missing one is not empty either. -/
theorem fromEnd_ne_zero (nonzero : ∀ x ∈ a.dims, x ≠ 0) (i : Nat) : a.fromEnd i ≠ 0 := by
  rw [fromEnd]
  cases there : a.fromEnd? i with
  | none => decide
  | some x => exact nonzero x (List.mem_reverse.1 (List.mem_of_getElem? there))

/-- Only shapes without elements clash with others. -/
theorem not_clash_of_forall_ne_zero (nonzero : ∀ x ∈ a.dims, x ≠ 0)
    (nonzero' : ∀ x ∈ b.dims, x ≠ 0) : ¬ Clash a b i := by
  have left := fromEnd_ne_zero nonzero i
  have right := fromEnd_ne_zero nonzero' i
  rw [Clash]
  omega

/-- Where two extents fit, the larger one is the one that is not one, except in a clash. -/
theorem keeps_stretched_iff (fit : Fit (a.fromEnd i) (b.fromEnd i)) :
    Keeps a (stretched a b) i ∧ Keeps b (stretched a b) i ↔ ¬ Clash a b i := by
  have rank_eq := rank_stretched a b
  rw [keeps_iff (by omega), keeps_iff (by omega), fromEnd_stretched, Clash]
  rw [Fit] at fit
  omega

/-- In a clash an axis of extent one comes out. -/
theorem fromEnd?_stretched_of_clash (clash : Clash a b i) :
    (stretched a b).fromEnd? i = some 1 := by
  have in_front_a := fromEnd_of_rank_le (a := a) (i := i)
  have in_front_b := fromEnd_of_rank_le (a := b) (i := i)
  rw [fromEnd?_eq_some_iff, rank_stretched, fromEnd_stretched]
  rw [Clash] at clash
  omega

/-- **Broadcasting, axis by axis.** Two shapes that fit stretch to one of as many axes as the larger
one has; an axis of it has the extent that either operand has there, if that is not one, unless an
extent of zero stands beside one of one: then it has extent one. A shape stretches to just those
targets of at least as many axes that have its extents, or any but zero in place of one, and besides
one in place of zero. Where no zero meets a one, those are the targets that keep all extents other
than one. -/
theorem broadcast_by_axis (a b : Shape) :
    (isBroadcastable a b = true → ∃ c, broadcast a b = .ok c ∧ c.rank = max a.rank b.rank ∧
      ∀ i, (Keeps a c i ∧ Keeps b c i ↔ ¬ Clash a b i) ∧ (Clash a b i → c.fromEnd? i = some 1)) ∧
    (∀ c, broadcastTo a b = .ok c → c = b) ∧
    ((∃ c, broadcastTo a b = .ok c) ↔ a.rank ≤ b.rank ∧
      ∀ i, a.fromEnd i = b.fromEnd i ∨ (a.fromEnd i = 1 ∧ b.fromEnd i ≠ 0) ∨
        (a.fromEnd i = 0 ∧ b.fromEnd i = 1)) ∧
    ((∀ i, ¬ Clash a b i) →
      ((∃ c, broadcastTo a b = .ok c) ↔ a.rank ≤ b.rank ∧ ∀ i, Keeps a b i)) := by
  refine ⟨fun fits => ?_, fun c made => (broadcastTo_eq_ok_iff.1 made).1, ?_, fun apart => ?_⟩
  · have fit := isBroadcastable_iff.1 fits
    refine ⟨stretched a b, broadcast_eq_ok_iff.2 ⟨fit, rfl⟩, rank_stretched a b, fun i => ?_⟩
    exact ⟨keeps_stretched_iff (fit i), fromEnd?_stretched_of_clash⟩
  · rw [exists_broadcastTo_iff]
    apply and_congr_right
    intro _
    apply forall_congr'
    intro i
    rw [Fit]
    omega
  · rw [exists_broadcastTo_iff]
    apply and_congr_right
    intro rank_le
    apply forall_congr'
    intro i
    have no_clash := apart i
    rw [keeps_iff rank_le, Fit]
    rw [Clash] at no_clash
    omega

theorem broadcast_without_zeros :
    (∃ c, broadcast ⟨[5, 1, 4]⟩ ⟨[3, 1]⟩ = .ok c ∧
      ∀ i, Keeps ⟨[5, 1, 4]⟩ c i ∧ Keeps ⟨[3, 1]⟩ c i) ∧
    ((∃ c, broadcastTo ⟨[3, 1]⟩ ⟨[2, 3, 4]⟩ = .ok c) ↔
      Shape.rank ⟨[3, 1]⟩ ≤ Shape.rank ⟨[2, 3, 4]⟩ ∧ ∀ i, Keeps ⟨[3, 1]⟩ ⟨[2, 3, 4]⟩ i) := by
  constructor
  · obtain ⟨c, made, _, laws⟩ := (broadcast_by_axis ⟨[5, 1, 4]⟩ ⟨[3, 1]⟩).1 rfl
    exact ⟨c, made, fun i =>
      (laws i).1.2 (not_clash_of_forall_ne_zero (by decide) (by decide))⟩
  · exact (broadcast_by_axis ⟨[3, 1]⟩ ⟨[2, 3, 4]⟩).2.2.2 fun i =>
      not_clash_of_forall_ne_zero (by decide) (by decide)

/-- An axis without elements stretches to one of extent one, and an axis of extent one does not
stretch to one without elements. -/
theorem broadcast_zero_beside_one :
    isBroadcastable ⟨[0]⟩ ⟨[1]⟩ = true ∧ broadcast ⟨[0]⟩ ⟨[1]⟩ = .ok ⟨[1]⟩ ∧
    ¬ Keeps ⟨[0]⟩ ⟨[1]⟩ 0 ∧ broadcastTo ⟨[0]⟩ ⟨[1]⟩ = .ok ⟨[1]⟩ ∧
    (Shape.rank ⟨[1]⟩ ≤ Shape.rank ⟨[0]⟩ ∧ ∀ i, Keeps ⟨[1]⟩ ⟨[0]⟩ i) ∧
    broadcastTo ⟨[1]⟩ ⟨[0]⟩ = .error (.shape (.otherResult ⟨[1]⟩ ⟨[0]⟩ ⟨[1]⟩)) := by
  refine ⟨rfl, rfl, ?_, rfl, ⟨Nat.le_refl _, fun i x there => ?_⟩, rfl⟩
  · intro keeps
    have either := keeps 0 rfl
    simp [fromEnd?] at either
  · rw [fromEnd?] at there
    exact .inl (by simpa using List.mem_of_getElem? there)

end TensorGraph.Shape
