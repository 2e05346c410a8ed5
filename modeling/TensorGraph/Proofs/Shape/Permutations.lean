import Mathlib.Data.List.Nodup
import Mathlib.Data.List.Perm.Subperm
import TensorGraph.Shape.Rewrite

/-!
Permuted axes. The check of a permutation looks at one entry after the other: each names an axis,
and none does so twice. With as many entries as there are axes, no axis can be left out then, so
exactly the permutations pass. They act on shapes: one after the other is one permutation again,
each is undone by its inverse, and exchanging the last two axes is one of them.
-/

namespace TensorGraph.Shape

variable {s r : Shape} {p q seen : List Int} {n : Nat}

/-- The numbers of all axes, in order. -/
def axes (rank : Nat) : List Int := (List.range rank).map Int.ofNat

/-- The entries of a first permutation at the places that a second one names. -/
def composed (p q : List Int) : List Int := q.map fun j => p.getD j.toNat 0

/-- The place of each axis in a permutation. -/
def inverse (p : List Int) : List Int := (axes p.length).map fun k => (p.idxOf k : Int)

/-- The shape that has, at each place, the extent along the axis that is named there. -/
def reordered (s : Shape) (p : List Int) : Shape := ⟨p.map fun x => s.dimAt x.toNat⟩

@[simp] theorem length_axes (rank : Nat) : (axes rank).length = rank := by simp [axes]

theorem mem_axes {x : Int} : x ∈ axes n ↔ 0 ≤ x ∧ x < n := by
  rw [axes, List.mem_map]
  constructor
  · rintro ⟨k, member, rfl⟩
    have below := List.mem_range.1 member
    rw [Int.ofNat_eq_natCast]
    omega
  · rintro ⟨low, high⟩
    exact ⟨x.toNat, List.mem_range.2 (by omega), Int.toNat_of_nonneg low⟩

theorem nodup_axes (rank : Nat) : (axes rank).Nodup :=
  List.Nodup.map (fun _ _ => Int.ofNat.inj) List.nodup_range

/-! ### The check -/

theorem checkPermutation_eq_ok_iff : checkPermutation n seen p = .ok () ↔
    (∀ x ∈ p, x ∈ axes n) ∧ p.Nodup ∧ ∀ x ∈ p, x ∉ seen := by
  induction p generalizing seen with
  | nil => simp [checkPermutation]
  | cons x rest ih =>
    by_cases named : x ∈ axes n
    · have passed : ¬ (x < 0 ∨ (n : Int) ≤ x) := by
        have bounds := mem_axes.1 named
        omega
      by_cases again : x ∈ seen
      · simp [checkPermutation, passed, again]
      · -- The entry joins those that were seen: the rest has to avoid it as well.
        rw [checkPermutation, if_neg passed, if_neg again, ih]
        simp only [List.nodup_cons, List.mem_cons, not_or]
        grind
    · have refused : x < 0 ∨ (n : Int) ≤ x := by
        rw [mem_axes] at named
        omega
      simp [checkPermutation, refused, named]

/-- Distinct axes, as many as there are, are all axes. -/
theorem perm_axes_iff : p.Perm (axes n) ↔ p.length = n ∧ (∀ x ∈ p, x ∈ axes n) ∧ p.Nodup := by
  constructor
  · intro perm
    exact ⟨by simpa using perm.length_eq, fun x => perm.mem_iff.1, perm.nodup_iff.2 (nodup_axes n)⟩
  · rintro ⟨length_eq, named, distinct⟩
    apply (List.subperm_of_subset distinct named).perm_of_length_le
    rw [length_axes]
    exact Nat.le_of_eq length_eq.symm

theorem permute_eq_ok_iff :
    s.permute p = .ok r ↔ p.Perm (axes s.rank) ∧ r = s.reordered p := by
  rw [permute, perm_axes_iff]
  by_cases length_eq : p.length = s.rank
  · rw [if_neg (not_not.2 length_eq), bind_eq_ok_iff]
    constructor
    · rintro ⟨_, checked, made⟩
      obtain ⟨named, distinct, _⟩ := checkPermutation_eq_ok_iff.1 checked
      exact ⟨⟨length_eq, named, distinct⟩, (Except.ok.inj made).symm⟩
    · rintro ⟨⟨_, named, distinct⟩, rfl⟩
      exact ⟨(), checkPermutation_eq_ok_iff.2 ⟨named, distinct, by simp⟩, rfl⟩
  · simp [length_eq]

/-! ### Extents -/

theorem map_dimAt_range (s : Shape) : (List.range s.rank).map s.dimAt = s.dims := by
  apply List.ext_getElem
  · simp [rank]
  · intro i inside inside'
    simp [dimAt, inside']

theorem map_dimAt_axes (s : Shape) : (axes s.rank).map (fun x => s.dimAt x.toNat) = s.dims := by
  rw [axes, List.map_map]
  exact map_dimAt_range s

theorem reordered_axes (s : Shape) : s.reordered (axes s.rank) = s :=
  congrArg Shape.mk (map_dimAt_axes s)

theorem product_eq_of_perm {dims dims' : List Nat} (perm : dims.Perm dims') :
    product dims = product dims' :=
  perm.foldr_eq 1

theorem size_reordered (perm : p.Perm (axes s.rank)) : (s.reordered p).size = s.size := by
  calc (s.reordered p).size
      = product ((axes s.rank).map fun x => s.dimAt x.toNat) := product_eq_of_perm (perm.map _)
    _ = s.size := by rw [map_dimAt_axes, size]

theorem size_permute (made : s.permute p = .ok r) : r.size = s.size := by
  obtain ⟨perm, rfl⟩ := permute_eq_ok_iff.1 made
  exact size_reordered perm

theorem rank_reordered (perm : p.Perm (axes s.rank)) : (s.reordered p).rank = s.rank := by
  simpa [reordered, rank] using perm.length_eq

/-! ### Composition -/

theorem map_getD_axes (p : List Int) :
    (axes p.length).map (fun j => p.getD j.toNat 0) = p := by
  apply List.ext_getElem
  · simp
  · intro i inside inside'
    simp [axes, inside']

/-- Reading a permutation at the places of another one gives a permutation. -/
theorem composed_perm (perm : p.Perm (axes n)) (perm' : q.Perm (axes n)) :
    (composed p q).Perm (axes n) := by
  have entries := map_getD_axes p
  rw [(perm_axes_iff.1 perm).1] at entries
  have rearranged : (composed p q).Perm ((axes n).map fun j => p.getD j.toNat 0) := perm'.map _
  rw [entries] at rearranged
  exact rearranged.trans perm

theorem reordered_reordered (perm : p.Perm (axes n)) (perm' : q.Perm (axes n)) (s : Shape) :
    (s.reordered p).reordered q = s.reordered (composed p q) := by
  have extent_eq (j : Int) (member : j ∈ q) :
      (s.reordered p).dimAt j.toNat = s.dimAt (p.getD j.toNat 0).toNat := by
    have bounds := mem_axes.1 (perm'.mem_iff.1 member)
    have length_eq := (perm_axes_iff.1 perm).1
    have inside : j.toNat < p.length := by omega
    simp [reordered, dimAt, inside]
  have dims_eq : q.map (fun j => (s.reordered p).dimAt j.toNat) =
      (composed p q).map fun x => s.dimAt x.toNat := by
    rw [composed, List.map_map]
    exact List.map_congr_left extent_eq
  exact congrArg Shape.mk dims_eq

theorem composed_inverse (perm : p.Perm (axes n)) : composed p (inverse p) = axes n := by
  rw [composed, inverse, (perm_axes_iff.1 perm).1, List.map_map]
  apply (List.map_congr_left _).trans (List.map_id (axes n))
  intro k member
  have inside : p.idxOf k < p.length := List.idxOf_lt_length_iff.2 (perm.mem_iff.2 member)
  simp [inside]

theorem inverse_composed (perm : p.Perm (axes n)) : composed (inverse p) p = axes n := by
  obtain ⟨length_eq, named, distinct⟩ := perm_axes_iff.1 perm
  apply List.ext_getElem
  · simp [composed, length_eq]
  · intro i inside inside'
    have here : i < p.length := by simpa [composed] using inside
    have bounds := mem_axes.1 (named p[i] (List.getElem_mem here))
    have below : p[i].toNat < p.length := by omega
    have same : ((p[i].toNat : Nat) : Int) = p[i] := Int.toNat_of_nonneg bounds.1
    simp [composed, inverse, axes, below, same, distinct.idxOf_getElem]

/-- The inverse of a permutation is one. -/
theorem inverse_perm (perm : p.Perm (axes n)) : (inverse p).Perm (axes n) := by
  have length_eq : (inverse p).length = n := by
    rw [inverse, List.length_map, length_axes, (perm_axes_iff.1 perm).1]
  have entries := map_getD_axes (inverse p)
  rw [length_eq] at entries
  -- Read at the places of `p` it lists all axes, and `p` names every place once.
  have rearranged : (composed (inverse p) p).Perm
      ((axes n).map fun j => (inverse p).getD j.toNat 0) := perm.map _
  rw [entries, inverse_composed perm] at rearranged
  exact rearranged.symm

/-- Two permutations, one after the other, are one. -/
theorem exists_permute_permute (perm : p.Perm (axes s.rank)) (perm' : q.Perm (axes s.rank)) :
    ∃ r x, s.permute p = .ok r ∧ r.permute q = .ok x ∧ s.permute (composed p q) = .ok x := by
  have first : s.permute p = .ok (s.reordered p) := permute_eq_ok_iff.2 ⟨perm, rfl⟩
  have second : (s.reordered p).permute q = .ok ((s.reordered p).reordered q) := by
    rw [permute_eq_ok_iff, rank_reordered perm]
    exact ⟨perm', rfl⟩
  have at_once : s.permute (composed p q) = .ok ((s.reordered p).reordered q) := by
    rw [permute_eq_ok_iff, reordered_reordered perm perm']
    exact ⟨composed_perm perm perm', rfl⟩
  exact ⟨s.reordered p, (s.reordered p).reordered q, first, second, at_once⟩

/-- The inverse of a permutation brings all axes back. -/
theorem exists_permute_inverse (perm : p.Perm (axes s.rank)) :
    ∃ r, s.permute p = .ok r ∧ r.permute (inverse p) = .ok s := by
  obtain ⟨r, x, made, restored, at_once⟩ := exists_permute_permute perm (inverse_perm perm)
  obtain ⟨_, rfl⟩ := permute_eq_ok_iff.1 at_once
  rw [composed_inverse perm, reordered_axes] at restored
  exact ⟨r, made, restored⟩

/-! ### The last two axes -/

/-- The last two of some items exchange their places, whatever the items are. -/
theorem swapLast_map (f : Nat → Nat) (xs : List Nat) :
    swapLast (xs.map f) = (swapLast xs).map f := by
  obtain ⟨reversed, rfl⟩ := List.reverse_surjective xs
  match reversed with
  | [] => rfl
  | [_] => rfl
  | y :: x :: rest => simp [swapLast]

theorem swapLast_perm (xs : List Nat) : (swapLast xs).Perm xs := by
  obtain ⟨reversed, rfl⟩ := List.reverse_surjective xs
  match reversed with
  | [] => exact .refl _
  | [_] => exact .refl _
  | y :: x :: rest =>
    rw [swapLast, List.reverse_reverse]
    exact ((List.reverse_perm _).trans (.swap y x rest)).trans (List.reverse_perm _).symm

theorem size_transpose (made : s.transpose = .ok r) : r.size = s.size := by
  rw [transpose] at made
  split at made
  · cases made
  · cases made
    exact product_eq_of_perm (swapLast_perm s.dims)

/-- Exchanging the last two axes is a permutation of the axes. -/
theorem transpose_eq_permute (wide : 2 ≤ s.rank) :
    s.transpose = s.permute ((swapLast (List.range s.rank)).map Int.ofNat) := by
  have perm : ((swapLast (List.range s.rank)).map Int.ofNat).Perm (axes s.rank) :=
    (swapLast_perm _).map _
  have dims_eq : ((swapLast (List.range s.rank)).map Int.ofNat).map (fun x => s.dimAt x.toNat) =
      swapLast s.dims := by
    calc ((swapLast (List.range s.rank)).map Int.ofNat).map (fun x => s.dimAt x.toNat)
        = (swapLast (List.range s.rank)).map s.dimAt := List.map_map
      _ = swapLast ((List.range s.rank).map s.dimAt) := (swapLast_map _ _).symm
      _ = swapLast s.dims := by rw [map_dimAt_range]
  rw [transpose, if_neg (Nat.not_lt.2 wide), eq_comm, permute_eq_ok_iff]
  exact ⟨perm, congrArg Shape.mk dims_eq.symm⟩

/-- Exchanging the last two axes twice changes nothing. -/
theorem exists_transpose_transpose (wide : 2 ≤ s.rank) :
    ∃ r, s.transpose = .ok r ∧ r.transpose = .ok s := by
  have rank_eq : Shape.rank ⟨swapLast s.dims⟩ = s.rank := (swapLast_perm s.dims).length_eq
  refine ⟨⟨swapLast s.dims⟩, if_neg (Nat.not_lt.2 wide), ?_⟩
  rw [transpose, if_neg (by rw [rank_eq]; exact Nat.not_lt.2 wide), swapLast_swapLast]

/-- **Permutations act on shapes.** A list of numbers is taken as an order of the axes if and only
if it is a permutation of the numbers of all axes; the number of elements stays the same. Two
permutations, one after the other, come to reading the first at the places of the second, and every
permutation is undone by its inverse. Without a list the last two axes are exchanged, which is
undone by doing it again. -/
theorem permute_by_permutations (s : Shape) (p : List Int) :
    ((∃ r, s.permute p = .ok r) ↔ p.Perm (axes s.rank)) ∧
    (∀ r, s.permute p = .ok r → r.size = s.size) ∧
    (∀ q : List Int, p.Perm (axes s.rank) → q.Perm (axes s.rank) →
      ∃ r x, s.permute p = .ok r ∧ r.permute q = .ok x ∧ s.permute (composed p q) = .ok x) ∧
    (p.Perm (axes s.rank) →
      (inverse p).Perm (axes s.rank) ∧
      composed p (inverse p) = axes s.rank ∧ composed (inverse p) p = axes s.rank ∧
      ∃ r, s.permute p = .ok r ∧ r.permute (inverse p) = .ok s) ∧
    (2 ≤ s.rank →
      s.transpose = s.permute ((swapLast (List.range s.rank)).map Int.ofNat) ∧
      ∃ r, s.transpose = .ok r ∧ r.transpose = .ok s) := by
  refine ⟨?accepted, ?size, fun q => exists_permute_permute, ?undone, ?exchanged⟩
  case accepted => simp only [permute_eq_ok_iff, exists_and_left, exists_eq, and_true]
  case size =>
    intro r made
    obtain ⟨perm, rfl⟩ := permute_eq_ok_iff.1 made
    exact size_reordered perm
  case undone =>
    intro perm
    exact ⟨inverse_perm perm, composed_inverse perm, inverse_composed perm,
      exists_permute_inverse perm⟩
  case exchanged =>
    intro wide
    exact ⟨transpose_eq_permute wide, exists_transpose_transpose wide⟩

/-- Three axes moved round, and then the last two exchanged. -/
theorem permute_by_permutations_round :
    permute ⟨[2, 3, 4]⟩ [2, 0, 1] = .ok ⟨[4, 2, 3]⟩ ∧ Shape.size ⟨[4, 2, 3]⟩ = 24 ∧
    (∃ r x, permute ⟨[2, 3, 4]⟩ [2, 0, 1] = .ok r ∧ r.permute [0, 2, 1] = .ok x ∧
      permute ⟨[2, 3, 4]⟩ [2, 1, 0] = .ok x) ∧
    (∃ r, permute ⟨[2, 3, 4]⟩ [2, 0, 1] = .ok r ∧ r.permute [1, 2, 0] = .ok ⟨[2, 3, 4]⟩) ∧
    (∃ r, transpose ⟨[2, 3, 4]⟩ = .ok r ∧ r.transpose = .ok ⟨[2, 3, 4]⟩) := by
  have made : permute ⟨[2, 3, 4]⟩ [2, 0, 1] = .ok ⟨[4, 2, 3]⟩ := rfl
  obtain ⟨accepted, size_eq, twice, undone, exchanged⟩ :=
    permute_by_permutations ⟨[2, 3, 4]⟩ [2, 0, 1]
  have perm := accepted.1 ⟨_, made⟩
  have perm' : [0, 2, 1].Perm (axes 3) := by decide
  exact ⟨made, size_eq _ made, twice [0, 2, 1] perm perm', (undone perm).2.2.2,
    (exchanged (by decide)).2⟩

end TensorGraph.Shape
