import TensorGraph.Proofs.Digest.Preimage
import TensorGraph.Proofs.Tensor.Windows

/-!
What the digest of a tensor stands for. The message that is hashed gives the shape, the element type
and the bytes, so tensors with one digest agree in these, or two messages collide. The layout is no
part of the message. Along one axis that makes no difference; along two, the same bytes stand for
other elements in the other layout.
-/

namespace TensorGraph

open Number

theorem Shape.IsLinear.position_eq {s : Shape} (linear : s.IsLinear) {index : List Nat}
    (within : inside s.dims index = true) (l l' : Layout) :
    s.position index l = s.position index l' := by
  have few : (s.dims.filter (· ≠ 1)).length ≤ 1 :=
    linear.resolve_left fun none => Nat.lt_irrefl 0 (pos_of_inside within 0 none)
  have agree := rowPosition_eq_columnPosition few within
  cases l <;> cases l' <;> simp [position, agree]

namespace Tensor

variable {t u : Tensor} {d e : Digest}

/-- What is hashed for the digest of a tensor. -/
def message (t : Tensor) : List UInt8 := Digest.preimage t.shape t.elementType t.bytes

/-- Two tensors are seen as the same array, whatever the type that is asked for. -/
structure SameArray (t u : Tensor) : Prop where
  shape_eq : t.shape = u.shape
  elementType_eq : t.elementType = u.elementType
  array_eq : ∀ asked, t.array asked = u.array asked

theorem digest_eq_ok_iff : t.digest = .ok d ↔ Digest.Fits t.shape ∧ d = .ofMessage t.message :=
  Digest.compute_eq_ok_iff

theorem verify_eq (hashed : t.digest = .ok d) (expected : Digest) :
    t.verify expected = .ok (d == expected) := by
  rw [verify, hashed]
  rfl

theorem reference_eq (hashed : t.digest = .ok d) :
    t.reference = .ok ⟨t.shape, t.elementType, d⟩ := by
  rw [reference, hashed]
  rfl

theorem message_eq_iff (fits : Digest.Fits t.shape) (fits' : Digest.Fits u.shape) :
    t.message = u.message ↔
      t.shape = u.shape ∧ t.elementType = u.elementType ∧ t.bytes = u.bytes := by
  refine ⟨Digest.preimage_injective fits fits', fun same => ?_⟩
  rw [message, same.1, same.2.1, same.2.2, message]

/-! ### The same bytes in two layouts -/

theorem element_eq (shape_eq : t.shape = u.shape) (type_eq : t.elementType = u.elementType)
    (bytes_eq : t.bytes = u.bytes) {index : List Nat}
    (same : t.shape.position index t.layout = t.shape.position index u.layout) :
    t.element index = u.element index := by
  simp only [element, window, start, same, bytes_eq, type_eq]
  rw [shape_eq]

theorem sameArray_of_bytes_eq (shape_eq : t.shape = u.shape)
    (type_eq : t.elementType = u.elementType) (bytes_eq : t.bytes = u.bytes)
    (placed : t.layout = u.layout ∨ t.shape.IsLinear) : t.SameArray u where
  shape_eq := shape_eq
  elementType_eq := type_eq
  array_eq := by
    intro asked
    have elements : nested t.shape.dims t.element = nested u.shape.dims u.element := by
      rw [← shape_eq]
      refine nested_congr fun index within => element_eq shape_eq type_eq bytes_eq ?_
      rcases placed with layout_eq | linear
      · rw [layout_eq]
      · exact linear.position_eq within _ _
    rw [array, array, checkView_congr shape_eq type_eq, elements]

/-- The least word above zero stands for something else than zeros do. -/
theorem decode_one_ne_decode_zeros (a : ElementType) :
    a.decode (littleEndian a.size 1) ≠ a.decode (List.replicate a.size 0) := by
  have one : (a.decode (littleEndian a.size 1)).isPresent = true := by
    cases a <;> decide +kernel
  have zeros : (a.decode (List.replicate a.size 0)).isPresent = false := by
    cases a <;> decide +kernel
  intro same
  rw [same, zeros] at one
  cases one

theorem window_zero {s : Shape} {index : List Nat} (within : Shape.inside s.dims index = true)
    (a : ElementType) (layout : Layout) :
    (zero s a layout).window index = List.replicate a.size 0 := by
  have long : ((zero s a layout).window index).length = a.size := length_window within
  rw [window, zero, List.drop_replicate, List.take_replicate] at long ⊢
  rw [List.length_replicate] at long
  rw [long]

/-- Zeros with one element that is not zero, where the last axis varies fastest. -/
def spike (s : Shape) (a : ElementType) (index : List Nat) : Tensor :=
  (zero s a .rowMajor).write index (littleEndian a.size 1)

/-- The same bytes where the first axis varies fastest. -/
def columnSpike (s : Shape) (a : ElementType) (index : List Nat) : Tensor :=
  { spike s a index with layout := .columnMajor }

theorem element_spike_ne {s : Shape} {a : ElementType} {index : List Nat}
    (within : Shape.inside s.dims index = true)
    (apart : Shape.rowPosition 0 s.dims index ≠ Shape.columnPosition s.dims index) :
    (spike s a index).element index ≠ (columnSpike s a index).element index := by
  have written : (spike s a index).window index = littleEndian a.size 1 :=
    window_write within (length_littleEndian _ _)
  have kept : (columnSpike s a index).window index = (zero s a .columnMajor).window index := by
    apply take_drop_overwrite_of_apart
    rw [length_littleEndian]
    exact runs_apart a.size apart.symm
  rw [element, element, written, kept, window_zero within]
  exact decode_one_ne_decode_zeros a

/-- Arrays differ if they differ at an index. -/
theorem array_ne {asked : ElementType} (viewed : t.checkView asked = .ok ())
    (viewed' : u.checkView asked = .ok ()) {index : List Nat}
    (within : Shape.inside t.shape.dims index = true)
    (within' : Shape.inside u.shape.dims index = true)
    (different : t.element index ≠ u.element index) : t.array asked ≠ u.array asked := by
  rw [array_eq_ok_iff.2 ⟨viewed, rfl⟩, array_eq_ok_iff.2 ⟨viewed', rfl⟩, Ne, Except.ok.injEq]
  intro same
  have values := congrArg (Value.at? index) same
  rw [at?_nested within, at?_nested within', Option.some.injEq] at values
  exact different values

/-- Where two axes have several places, one message is that of tensors with different elements. -/
theorem exists_array_ne {a : Value} (shown : t.array t.elementType = .ok a)
    (folded : ¬ t.shape.IsLinear) :
    ∃ v w : Tensor, v.shape = t.shape ∧ w.shape = t.shape ∧ v.elementType = t.elementType ∧
      w.elementType = t.elementType ∧ v.message = w.message ∧
      v.array t.elementType ≠ w.array t.elementType := by
  obtain ⟨no_zero, several⟩ := not_or.1 folded
  have positive : ∀ n ∈ t.shape.dims, 0 < n :=
    fun n member => Nat.pos_of_ne_zero fun none => no_zero (none ▸ member)
  obtain ⟨index, within, apart⟩ := Shape.exists_positions_ne positive (by omega)
  have viewed (v : Tensor) (shape_eq : v.shape = t.shape)
      (type_eq : v.elementType = t.elementType) : v.checkView t.elementType = .ok () :=
    (checkView_congr shape_eq type_eq _).trans (array_eq_ok_iff.1 shown).1
  exact ⟨spike t.shape t.elementType index, columnSpike t.shape t.elementType index,
    rfl, rfl, rfl, rfl, rfl, array_ne (viewed _ rfl rfl) (viewed _ rfl rfl) within within
      (element_spike_ne within apart)⟩

/-! ### Digests -/

theorem eq_or_collides_of_digest_eq (hashed : t.digest = .ok d) (hashed' : u.digest = .ok d) :
    t.message = u.message ∨ Sha256.Collides t.message u.message :=
  Digest.eq_or_collides <|
    (digest_eq_ok_iff.1 hashed).2.symm.trans (digest_eq_ok_iff.1 hashed').2

/-- Six elements along one axis. -/
def sequence : Tensor := ⟨⟨[6]⟩, .int8, .rowMajor, [1, 2, 3, 4, 5, 6], rfl⟩

/-- The bytes of `columns`, row by row. -/
def rows : Tensor := { columns with layout := .rowMajor }

end Tensor

end TensorGraph
