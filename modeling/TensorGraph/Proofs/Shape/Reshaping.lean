import Mathlib.Algebra.BigOperators.Group.List.Basic
import Mathlib.Algebra.Order.BigOperators.GroupWithZero.List
import Mathlib.Algebra.Order.Ring.Int
import TensorGraph.Shape.Reshape

/-!
Reshaping, exactly. Which targets a shape accepts, and what becomes of them, depends on the number
of its elements only, and reshaping keeps that number. So it does not matter which shapes were gone
through before the last target, and one can always go back.
-/

namespace TensorGraph.Shape

variable {s r : Shape} {t whole : List Int} {size extent : Nat} {opened : Bool} {x : Int}

/-- Extents for so many elements: none lies below the mark of the open one, and either none is open
and their product is that number, or one is, and the product of the others divides it. -/
def Takes (t : List Int) (size : Nat) : Prop :=
  (∀ d ∈ t, -1 ≤ d) ∧
    ((-1 ∉ t ∧ t.prod = size) ∨
      (t.count (-1) = 1 ∧ (t.erase (-1)).prod ≠ 0 ∧ (t.erase (-1)).prod ∣ size))

/-- The extents with another number in the place of the open one. -/
def replaced (t : List Int) (x : Int) : List Int := t.map fun d => if d = -1 then x else d

/-- The shape with these extents, the open one being what the others leave. -/
def completed (t : List Int) (size : Nat) : Shape :=
  ⟨filled t ((size : Int) / (t.erase (-1)).prod).toNat⟩

/-! ### Checks -/

theorem checkTarget_eq_ok_iff : checkTarget whole opened t = .ok () ↔
    (∀ d ∈ t, -1 ≤ d) ∧ t.count (-1) + opened.toNat ≤ 1 := by
  induction t generalizing opened with
  | nil => cases opened <;> simp [checkTarget]
  | cons d rest ih =>
    by_cases mark : d = -1
    · subst mark
      cases opened <;> simp [checkTarget, ih]
    · have other : (d :: rest).count (-1) = rest.count (-1) := List.count_cons_of_ne mark
      rw [checkTarget, if_neg mark, other, List.forall_mem_cons]
      by_cases below : d < 0
      · have low : ¬ -1 ≤ d := by omega
        simp [below, low]
      · have high : -1 ≤ d := by omega
        simp [below, high, ih]

/-- Where at most one extent is open, the others are all but that one. -/
theorem filter_ne_eq_erase (few : t.count (-1) ≤ 1) : t.filter (· ≠ -1) = t.erase (-1) := by
  induction t with
  | nil => rfl
  | cons d rest ih =>
    by_cases mark : d = -1
    · subst mark
      have none_left : -1 ∉ rest := by
        rw [List.count_cons_self] at few
        exact List.count_eq_zero.1 (by omega)
      rw [List.erase_cons_head, List.filter_cons_of_neg (by simp), List.filter_eq_self]
      intro e member
      simpa using ne_of_mem_of_not_mem member none_left
    · rw [List.count_cons_of_ne mark] at few
      rw [List.erase_cons_tail (by simpa using mark), List.filter_cons_of_pos (by simpa using mark),
        ih few]

theorem knownSize_eq (few : t.count (-1) ≤ 1) : knownSize t = (t.erase (-1)).prod := by
  rw [knownSize, filter_ne_eq_erase few, List.prod_eq_foldr]

theorem notMem_erase (one : t.count (-1) = 1) : -1 ∉ t.erase (-1) := by
  rw [← List.count_eq_zero, List.count_erase_self, one]

/-! ### Products -/

theorem natCast_product (dims : List Nat) : (product dims : Int) = (dims.map Int.ofNat).prod := by
  induction dims with
  | nil => rfl
  | cons d dims ih => simp [ih]

theorem map_filled (marked : ∀ d ∈ t, -1 ≤ d) :
    (filled t extent).map Int.ofNat = replaced t extent := by
  rw [filled, List.map_map]
  apply List.map_congr_left
  intro d member
  have low := marked d member
  by_cases mark : d = -1
  · simp [mark]
  · simp only [Function.comp_apply, if_neg mark, Int.ofNat_eq_natCast]
    omega

theorem replaced_of_notMem (closed : -1 ∉ t) (x : Int) : replaced t x = t := by
  apply (List.map_congr_left _).trans (List.map_id t)
  intro d member
  exact if_neg (ne_of_mem_of_not_mem member closed)

theorem filled_of_notMem (closed : -1 ∉ t) (m n : Nat) : filled t m = filled t n := by
  apply List.map_congr_left
  intro d member
  have other : d ≠ -1 := ne_of_mem_of_not_mem member closed
  rw [if_neg other, if_neg other]

theorem prod_replaced (one : t.count (-1) = 1) : (replaced t x).prod = x * (t.erase (-1)).prod := by
  have member : -1 ∈ t := List.count_pos_iff.1 (by omega)
  have others := replaced_of_notMem (notMem_erase one) x
  rw [replaced] at others ⊢
  rw [((List.perm_cons_erase member).map _).prod_eq, List.map_cons, List.prod_cons, if_pos rfl,
    others]

theorem prod_erase_nonneg (marked : ∀ d ∈ t, -1 ≤ d) (one : t.count (-1) = 1) :
    0 ≤ (t.erase (-1)).prod := by
  apply List.prod_nonneg
  intro d member
  have other : d ≠ -1 := ne_of_mem_of_not_mem member (notMem_erase one)
  have low := marked d (List.mem_of_mem_erase member)
  omega

/-! ### Accepted targets -/

theorem Takes.count_le (takes : Takes t size) : t.count (-1) ≤ 1 := by
  obtain ⟨closed, _⟩ | ⟨one, _⟩ := takes.2
  · rw [List.count_eq_zero.2 closed]
    omega
  · exact Nat.le_of_eq one

/-- The quotient is no less than zero. -/
theorem Takes.extent_eq (takes : Takes t size) (one : t.count (-1) = 1) :
    (((size : Int) / (t.erase (-1)).prod).toNat : Int) = size / (t.erase (-1)).prod :=
  Int.toNat_of_nonneg (Int.ediv_nonneg (Int.natCast_nonneg size) (prod_erase_nonneg takes.1 one))

theorem Takes.map_completed (takes : Takes t size) :
    (completed t size).dims.map Int.ofNat = replaced t (size / (t.erase (-1)).prod) := by
  rw [completed, map_filled takes.1]
  obtain ⟨closed, _⟩ | ⟨one, _, _⟩ := takes.2
  · rw [replaced_of_notMem closed, replaced_of_notMem closed]
  · rw [takes.extent_eq one]

theorem size_completed_of_notMem (marked : ∀ d ∈ t, -1 ≤ d) (closed : -1 ∉ t) (size : Nat) :
    ((completed t size).size : Int) = t.prod := by
  rw [Shape.size, natCast_product, completed, map_filled marked, replaced_of_notMem closed]

theorem Takes.size_completed (takes : Takes t size) : (completed t size).size = size := by
  have count : ((completed t size).size : Int) = size := by
    obtain ⟨closed, product_eq⟩ | ⟨one, _, divides⟩ := takes.2
    · rw [size_completed_of_notMem takes.1 closed size, product_eq]
    · rw [Shape.size, natCast_product, takes.map_completed, prod_replaced one,
        Int.ediv_mul_cancel divides]
  exact Int.ofNat_inj.1 count

theorem sameSize_eq_ok_iff {result : Shape} :
    sameSize s result = .ok r ↔ result.size = s.size ∧ r = result := by
  rw [sameSize]
  split
  · next same => simp [same, eq_comm]
  · next other => simp [other]

/-- With all extents given, the check that is left is that of the size. -/
theorem sameSize_completed_of_notMem (marked : ∀ d ∈ t, -1 ≤ d) (closed : -1 ∉ t) :
    sameSize s (completed t s.size) = .ok r ↔ Takes t s.size ∧ r = completed t s.size := by
  rw [sameSize_eq_ok_iff]
  apply and_congr_left
  intro _
  constructor
  · intro size_eq
    refine ⟨marked, .inl ⟨closed, ?_⟩⟩
    rw [← size_completed_of_notMem marked closed s.size, size_eq]
  · exact Takes.size_completed

/-- With one extent open, the check that is left is that of the others. -/
theorem sameSize_completed_of_count (marked : ∀ d ∈ t, -1 ≤ d) (one : t.count (-1) = 1) :
    (if (t.erase (-1)).prod = 0 ∨ (s.size : Int) % (t.erase (-1)).prod ≠ 0 then
      .error (.shape (.notDivisible s (t.map .int)))
    else sameSize s (completed t s.size)) = .ok r ↔ Takes t s.size ∧ r = completed t s.size := by
  by_cases fits : (t.erase (-1)).prod ≠ 0 ∧ (t.erase (-1)).prod ∣ s.size
  · have takes : Takes t s.size := ⟨marked, .inr ⟨one, fits⟩⟩
    have passed : ¬ ((t.erase (-1)).prod = 0 ∨ (s.size : Int) % (t.erase (-1)).prod ≠ 0) := by
      rintro (zero | remainder)
      · exact fits.1 zero
      · exact remainder (Int.emod_eq_zero_of_dvd fits.2)
    rw [if_neg passed, sameSize_eq_ok_iff, and_iff_right takes, and_iff_right takes.size_completed]
  · have refused : (t.erase (-1)).prod = 0 ∨ (s.size : Int) % (t.erase (-1)).prod ≠ 0 := by
      by_cases zero : (t.erase (-1)).prod = 0
      · exact .inl zero
      · exact .inr fun even => fits ⟨zero, Int.dvd_of_emod_eq_zero even⟩
    rw [if_pos refused]
    constructor
    · intro made
      cases made
    · rintro ⟨⟨_, ⟨closed, _⟩ | ⟨_, others⟩⟩, _⟩
      · exact absurd one (by rw [List.count_eq_zero.2 closed]; decide)
      · exact absurd others fits

/-- A shape takes exactly the targets for as many elements as it has. -/
theorem reshape_eq_ok_iff : s.reshape t = .ok r ↔ Takes t s.size ∧ r = completed t s.size := by
  by_cases passes : (∀ d ∈ t, -1 ≤ d) ∧ t.count (-1) ≤ 1
  · obtain ⟨marked, few⟩ := passes
    have checked : checkTarget t false t = .ok () := checkTarget_eq_ok_iff.2 ⟨marked, few⟩
    rw [reshape, checked, ok_bind, knownSize_eq few]
    by_cases opened : -1 ∈ t
    · have one : t.count (-1) = 1 := by
        have positive := List.count_pos_iff.2 opened
        omega
      rw [if_pos opened]
      exact sameSize_completed_of_count marked one
    · have result : (⟨filled t 0⟩ : Shape) = completed t s.size :=
        congrArg Shape.mk (filled_of_notMem opened _ _)
      rw [if_neg opened, result]
      exact sameSize_completed_of_notMem marked opened
  · constructor
    · intro made
      obtain ⟨_, checked, _⟩ := bind_eq_ok_iff.1 made
      exact absurd (checkTarget_eq_ok_iff.1 checked) passes
    · rintro ⟨takes, _⟩
      exact absurd ⟨takes.1, takes.count_le⟩ passes

theorem size_reshape (made : s.reshape t = .ok r) : r.size = s.size := by
  obtain ⟨takes, rfl⟩ := reshape_eq_ok_iff.1 made
  exact takes.size_completed

/-! ### Reshaping again -/

/-- Extents that are all given come out as they are. -/
theorem filled_map_ofNat (dims : List Nat) (extent : Nat) :
    filled (dims.map Int.ofNat) extent = dims := by
  rw [filled, List.map_map]
  apply (List.map_congr_left _).trans (List.map_id dims)
  simp

theorem completed_dims (s : Shape) (size : Nat) : completed (s.dims.map Int.ofNat) size = s :=
  congrArg Shape.mk (filled_map_ofNat s.dims _)

theorem takes_dims (s : Shape) : Takes (s.dims.map Int.ofNat) s.size := by
  have given : ∀ d ∈ s.dims.map Int.ofNat, 0 ≤ d := by simp
  refine ⟨fun d member => ?_, .inl ⟨fun member => ?_, (natCast_product s.dims).symm⟩⟩
  · have low := given d member
    omega
  · have low := given _ member
    omega

/-- The extents of a shape are a target for every shape with as many elements. -/
theorem reshape_dims (same : r.size = s.size) : r.reshape (s.dims.map Int.ofNat) = .ok s := by
  rw [reshape_eq_ok_iff, same, completed_dims]
  exact ⟨takes_dims s, rfl⟩

/-- **Reshaping goes by the number of elements.** A shape takes the targets without extents below
`-1` of which either none is `-1` and the product is the number of elements, or just one is, and the
product of the others is not zero and divides that number. The result has the extents of the target,
with the quotient for `-1`, and as many elements. Reshaping it once more comes to the same as
reshaping the first shape, so the first shape can be had back. -/
theorem reshape_by_size (s : Shape) (t : List Int) :
    ((∃ r, s.reshape t = .ok r) ↔ Takes t s.size) ∧
    ∀ r, s.reshape t = .ok r →
      r.dims.map Int.ofNat = replaced t (s.size / (t.erase (-1)).prod) ∧
      r.size = s.size ∧
      (∀ u x, r.reshape u = .ok x ↔ s.reshape u = .ok x) ∧
      r.reshape (s.dims.map Int.ofNat) = .ok s := by
  refine ⟨?accepted, fun r made => ?result⟩
  case accepted =>
    simp only [reshape_eq_ok_iff, exists_and_left, exists_eq, and_true]
  case result =>
    obtain ⟨takes, rfl⟩ := reshape_eq_ok_iff.1 made
    have size_eq : (completed t s.size).size = s.size := takes.size_completed
    refine ⟨takes.map_completed, size_eq, fun u x => ?_, ?_⟩
    · rw [reshape_eq_ok_iff, reshape_eq_ok_iff, size_eq]
    · rw [reshape_eq_ok_iff, size_eq, completed_dims]
      exact ⟨takes_dims s, rfl⟩

/-- The middle one of three extents is open. -/
theorem reshape_by_size_open :
    reshape ⟨[2, 3, 4]⟩ [4, -1, 2] = .ok ⟨[4, 3, 2]⟩ ∧ Takes [4, -1, 2] 24 ∧
    Shape.size ⟨[4, 3, 2]⟩ = 24 ∧
    (∀ u x, reshape ⟨[4, 3, 2]⟩ u = .ok x ↔ reshape ⟨[2, 3, 4]⟩ u = .ok x) ∧
    reshape ⟨[4, 3, 2]⟩ [2, 3, 4] = .ok ⟨[2, 3, 4]⟩ := by
  have made : reshape ⟨[2, 3, 4]⟩ [4, -1, 2] = .ok ⟨[4, 3, 2]⟩ := rfl
  obtain ⟨accepted, result⟩ := reshape_by_size ⟨[2, 3, 4]⟩ [4, -1, 2]
  obtain ⟨_, size_eq, again, back⟩ := result _ made
  exact ⟨made, accepted.1 ⟨_, made⟩, size_eq, again, back⟩

end TensorGraph.Shape
