import TensorGraph.Proofs.Shape.DenseBuffer

/-!
Elements that change their layout. Where the last axis varies fastest, the indices come in the order
of their positions. The element at a position of one layout has a position in the other one; going
there and back leads to where one started, so the positions of a buffer are permuted.
-/

namespace TensorGraph.Shape

variable {dims index : List Nat} {s : Shape} {k p : Nat} {layout source target : Layout}

/-- In lists of one length behind each other, a place is found by the list and the place in it. -/
theorem getElem?_flatMap_of_length {α β : Type} {f : α → List β} {width : Nat} (wide : 0 < width)
    {l : List α} (even : ∀ x ∈ l, (f x).length = width) :
    (l.flatMap f)[k]? = l[k / width]?.bind fun x => (f x)[k % width]? := by
  induction l generalizing k with
  | nil => simp
  | cons x l ih =>
    obtain ⟨first, rest⟩ := List.forall_mem_cons.1 even
    rw [List.flatMap_cons, List.getElem?_append, first]
    split
    · next here => rw [Nat.div_eq_of_lt here, Nat.mod_eq_of_lt here]; rfl
    · next later =>
      have behind : width ≤ k := Nat.le_of_not_lt later
      rw [ih rest, Nat.div_eq_sub_div wide behind, Nat.mod_eq_sub_mod behind]
      rfl

/-- The index that is listed at a place leads to that place in row order. -/
theorem getElem?_indices (below : k < product dims) :
    (indices dims)[k]? = some (rowPlaces dims k) := by
  induction dims generalizing k with
  | nil =>
    obtain rfl : k = 0 := Nat.lt_one_iff.1 below
    rfl
  | cons d dims ih =>
    have block_pos : 0 < product dims := Nat.pos_of_lt_mul_left below
    have place_lt : k / product dims < d := (Nat.div_lt_iff_lt_mul block_pos).2 below
    have even : ∀ i ∈ List.range d, ((indices dims).map (i :: ·)).length = product dims := by
      intro i _
      rw [List.length_map, length_indices]
    rw [indices, getElem?_flatMap_of_length block_pos even, List.getElem?_range place_lt,
      Option.bind_some, List.getElem?_map, ih (Nat.mod_lt k block_pos)]
    rfl

theorem position_indexAt (below : p < s.size) (layout : Layout) :
    s.position (s.indexAt p layout) layout = p := by
  rw [position_eq_offset (inside_indexAt below layout), offset_indexAt below layout]

theorem indexAt_position (within : inside s.dims index = true) (layout : Layout) :
    s.indexAt (s.position index layout) layout = index := by
  have below := position_lt within layout
  exact eq_of_position_eq (inside_indexAt below layout) within (position_indexAt below layout)

/-- Where the element at a position of one layout lies in another one. -/
def relocated (s : Shape) (source target : Layout) (p : Nat) : Nat :=
  s.position (s.indexAt p source) target

theorem relocated_lt (below : p < s.size) : s.relocated source target p < s.size :=
  position_lt (inside_indexAt below source) target

/-- An element is found again where it lay before. -/
theorem relocated_relocated (below : p < s.size) :
    s.relocated target source (s.relocated source target p) = p := by
  rw [relocated, relocated, indexAt_position (inside_indexAt below source),
    position_indexAt below]

/-- A change of layout permutes the positions of a buffer. -/
theorem relocated_bijOn (s : Shape) (source target : Layout) :
    Set.BijOn (s.relocated source target) {p | p < s.size} {p | p < s.size} := by
  have back : Set.InvOn (s.relocated target source) (s.relocated source target)
      {p | p < s.size} {p | p < s.size} :=
    ⟨fun _ below => relocated_relocated below, fun _ below => relocated_relocated below⟩
  exact back.bijOn (fun _ below => relocated_lt below) fun _ below => relocated_lt below

end TensorGraph.Shape
