import TensorGraph.Proofs.Shape.Stretching
import TensorGraph.Shape.MatrixProduct
import TensorGraph.Shape.Rewrite

/-!
Products of batches of matrices. A product looks at each operand as a batch of matrices: it needs
equal inner extents and batches that stretch to one, and a single matrix stretches just as an empty
batch does, whatever the program puts in its place. All laws of products are read off from that one
description: vectors are matrices of one row or one column, transposing turns a product round, and
products can be grouped as one likes where batches can be stretched as one likes.
-/

namespace TensorGraph.Shape

variable {a b c r s : Shape} {left right view : MatrixView} {isLeft : Bool}
  {front front' front'' : List Nat} {m k k' n n' l : Nat}

/-- A batch of matrices with so many rows and columns. -/
def matrices (front : List Nat) (rows columns : Nat) : Shape := ⟨front ++ [rows, columns]⟩

/-- The axes in front of the last two. -/
def batch (s : Shape) : Shape := ⟨s.dims.take (s.rank - 2)⟩

/-- A vector as one row; any other shape as it is. -/
def asRow (s : Shape) : Shape :=
  match s.dims with
  | [k] => ⟨[1, k]⟩
  | _ => s

/-- A vector as one column; any other shape as it is. -/
def asColumn (s : Shape) : Shape :=
  match s.dims with
  | [k] => ⟨[k, 1]⟩
  | _ => s

/-- A product without the axes that vectors were given for it: the rows of a vector on the left, and
the columns of a vector on the right. -/
def withoutAdded (a b product : Shape) : Shape :=
  let dims := if b.rank = 1 then product.dims.eraseIdx (product.rank - 1) else product.dims
  ⟨if a.rank = 1 then dims.eraseIdx (product.rank - 2) else dims⟩

/-! ### Batches of matrices -/

theorem exists_matrices (wide : 2 ≤ s.rank) : ∃ front m n, s = matrices front m n := by
  obtain ⟨front, reverse_eq⟩ := exists_reverse_eq wide
  have dims_eq : s.dims = front.reverse ++ [s.fromEnd 1, s.fromEnd 0] := by
    rw [← List.reverse_reverse s.dims, reverse_eq]
    simp
  exact ⟨_, _, _, congrArg Shape.mk dims_eq⟩

@[simp] theorem rank_matrices : (matrices front m n).rank = front.length + 2 := by
  simp [matrices, rank]

theorem rank_matrices_ne_one : (matrices front m n).rank ≠ 1 := by
  rw [rank_matrices]
  omega

@[simp] theorem batch_matrices : (matrices front m n).batch = ⟨front⟩ := by
  rw [batch, rank_matrices, Nat.add_sub_cancel, matrices, List.take_left]

@[simp] theorem transpose_matrices : (matrices front m n).transpose = .ok (matrices front n m) := by
  rw [transpose, rank_matrices, if_neg (by omega)]
  simp [matrices, swapLast]

@[simp] theorem matrixView?_matrices :
    matrixView? isLeft (matrices front m n) = some ⟨front, m, n⟩ := by
  simp [matrixView?, matrices]

/-- Only vectors and single matrices have no batch. -/
theorem rank_le_two_iff (viewed : matrixView? isLeft s = some view) :
    s.rank ≤ 2 ↔ view.batch = [] := by
  rcases s with ⟨dims⟩
  obtain ⟨reversed, rfl⟩ := List.reverse_surjective dims
  match reversed with
  | [] => cases viewed
  | [k] =>
    cases isLeft <;> cases viewed <;> simp [rank]
  | n :: m :: rest =>
    rw [matrixView?, List.reverse_reverse] at viewed
    cases viewed
    simp [rank]

@[simp] theorem matrixView?_asRow (s : Shape) : matrixView? true s.asRow = matrixView? true s := by
  rw [asRow]
  split
  · next k dims_eq => simp [matrixView?, dims_eq]
  · rfl

@[simp] theorem matrixView?_asColumn (s : Shape) :
    matrixView? false s.asColumn = matrixView? false s := by
  rw [asColumn]
  split
  · next k dims_eq => simp [matrixView?, dims_eq]
  · rfl

/-! ### Stretching the batches -/

/-- A batch of one stands in for no batch. -/
theorem broadcast_one_eq_ok_iff (axes : 1 ≤ s.rank) :
    broadcast ⟨[1]⟩ s = .ok r ↔ broadcast ⟨[]⟩ s = .ok r := by
  have extents (i : Nat) : fromEnd ⟨[1]⟩ i = fromEnd ⟨[]⟩ i := by
    cases i <;> rfl
  have same : align ⟨[1]⟩ s = align ⟨[]⟩ s := by
    have rank_eq : max (rank ⟨[1]⟩) s.rank = max (rank ⟨[]⟩) s.rank := by
      simp only [rank, List.length_cons, List.length_nil] at axes ⊢
      omega
    simp only [align_eq, rank_eq, extents]
  rw [broadcast_eq_ok_iff, broadcast_eq_ok_iff, stretched, stretched, same]
  simp only [extents]

/-- With a batch on one side, a batch of one stands in for none on the other. -/
theorem broadcast_standIn_eq_ok_iff (needed : ¬ (front = [] ∧ front' = [])) :
    broadcast (if front = [] then ⟨[1]⟩ else ⟨front⟩) (if front' = [] then ⟨[1]⟩ else ⟨front'⟩) =
      .ok r ↔ broadcast ⟨front⟩ ⟨front'⟩ = .ok r := by
  by_cases left : front = []
  · have right : front' ≠ [] := fun right => needed ⟨left, right⟩
    rw [if_pos left, if_neg right, left]
    exact broadcast_one_eq_ok_iff (List.length_pos_iff.2 right)
  · by_cases right : front' = []
    · rw [if_neg left, if_pos right, right, broadcast_comm, broadcast_comm ⟨front⟩]
      exact broadcast_one_eq_ok_iff (List.length_pos_iff.2 left)
    · rw [if_neg left, if_neg right]

/-- The batch of a product is what the batches of the operands stretch to. -/
theorem productBatch_eq_ok_iff (viewed : matrixView? true a = some left)
    (viewed' : matrixView? false b = some right) :
    productBatch a b left.batch right.batch = .ok front ↔
      broadcast ⟨left.batch⟩ ⟨right.batch⟩ = .ok ⟨front⟩ := by
  simp only [productBatch, rank_le_two_iff viewed, rank_le_two_iff viewed']
  split
  · next both =>
    have empty : broadcast ⟨[]⟩ ⟨[]⟩ = .ok ⟨[]⟩ := rfl
    simp [both.1, both.2, empty]
  · next needed =>
    simp only [bind_eq_ok_iff, broadcast_standIn_eq_ok_iff needed]
    constructor
    · rintro ⟨j, made, dims_eq⟩
      cases dims_eq
      exact made
    · exact fun made => ⟨⟨front⟩, made, rfl⟩

/-- **What a product is.** The inner extents agree, the batches stretch to one, and the result has
that batch and the outer extents, except for those of vectors. -/
theorem matrixProduct_eq_ok_iff (viewed : matrixView? true a = some left)
    (viewed' : matrixView? false b = some right) :
    matrixProduct a b = .ok r ↔ left.columns = right.rows ∧
      ∃ j, broadcast ⟨left.batch⟩ ⟨right.batch⟩ = .ok j ∧
        r = ⟨j.dims ++ (if a.rank = 1 then [] else [left.rows]) ++
          (if b.rank = 1 then [] else [right.columns])⟩ := by
  rw [matrixProduct, viewed, viewed']
  by_cases inner : left.columns = right.rows
  · simp only [inner, ne_eq, not_true_eq_false, if_false, true_and, bind_eq_ok_iff,
      productBatch_eq_ok_iff viewed viewed']
    constructor
    · rintro ⟨front, made, result⟩
      exact ⟨⟨front⟩, made, (Except.ok.inj result).symm⟩
    · rintro ⟨j, made, rfl⟩
      exact ⟨j.dims, made, rfl⟩
  · simp [inner]

theorem matrixProduct_matrices : matrixProduct (matrices front m k) (matrices front' k' n) = .ok r ↔
    k = k' ∧ ∃ j, broadcast ⟨front⟩ ⟨front'⟩ = .ok j ∧ r = matrices j.dims m n := by
  rw [matrixProduct_eq_ok_iff matrixView?_matrices matrixView?_matrices,
    if_neg rank_matrices_ne_one, if_neg rank_matrices_ne_one]
  simp only [matrices, List.append_assoc, List.singleton_append]

/-! ### Vectors -/

theorem withoutAdded_matrices (a b : Shape) : withoutAdded a b (matrices front m n) =
    ⟨front ++ (if a.rank = 1 then [] else [m]) ++ (if b.rank = 1 then [] else [n])⟩ := by
  have columns : (front ++ [m, n]).eraseIdx (front.length + 1) = front ++ [m] := by
    rw [List.eraseIdx_append_of_length_le (by omega), Nat.add_sub_cancel_left]
    rfl
  have rows (rest : List Nat) : (front ++ m :: rest).eraseIdx front.length = front ++ rest := by
    rw [List.eraseIdx_append_of_length_le (Nat.le_refl _), Nat.sub_self, List.eraseIdx_cons_zero]
  rw [withoutAdded, rank_matrices, Nat.add_sub_cancel, Nat.add_sub_assoc (by decide : 1 ≤ 2)]
  simp only [matrices, columns]
  split <;> split <;> simp [rows]

theorem rank_promoted_ne_one (s : Shape) : s.asRow.rank ≠ 1 ∧ s.asColumn.rank ≠ 1 := by
  match s with
  | ⟨[]⟩ => decide
  | ⟨[k]⟩ => simp [asRow, asColumn, rank]
  | ⟨d :: e :: rest⟩ => simp [asRow, asColumn, rank]

/-- A vector is multiplied as the matrix that it stands for. -/
theorem matrixProduct_eq_ok_iff_promoted : matrixProduct a b = .ok r ↔
    ∃ w, matrixProduct a.asRow b.asColumn = .ok w ∧ r = withoutAdded a b w := by
  cases viewed : matrixView? true a with
  | none => simp [matrixProduct, viewed]
  | some left =>
    cases viewed' : matrixView? false b with
    | none => simp [matrixProduct, viewed, viewed']
    | some right =>
      have promoted := (matrixView?_asRow a).trans viewed
      have promoted' := (matrixView?_asColumn b).trans viewed'
      simp only [matrixProduct_eq_ok_iff viewed viewed',
        matrixProduct_eq_ok_iff promoted promoted', if_neg (rank_promoted_ne_one a).1,
        if_neg (rank_promoted_ne_one b).2, List.append_assoc, List.singleton_append]
      constructor
      · rintro ⟨inner, j, stretched, rfl⟩
        refine ⟨_, ⟨inner, j, stretched, rfl⟩, ?_⟩
        rw [← List.append_assoc]
        exact (withoutAdded_matrices a b).symm
      · rintro ⟨_, ⟨inner, j, stretched, rfl⟩, rfl⟩
        refine ⟨inner, j, stretched, ?_⟩
        rw [← List.append_assoc]
        exact withoutAdded_matrices a b

/-! ### Transposes -/

/-- The product of the transposes, the other way round, is the transpose of the product. -/
theorem matrixProduct_transposed :
    matrixProduct (matrices front' n k') (matrices front k m) = .ok r ↔
      ∃ p, matrixProduct (matrices front m k) (matrices front' k' n) = .ok p ∧
        p.transpose = .ok r := by
  simp only [matrixProduct_matrices, broadcast_comm ⟨front'⟩, eq_comm (a := k')]
  constructor
  · rintro ⟨inner, j, stretched, rfl⟩
    exact ⟨_, ⟨inner, j, stretched, rfl⟩, transpose_matrices⟩
  · rintro ⟨p, ⟨inner, j, stretched, rfl⟩, transposed⟩
    rw [transpose_matrices] at transposed
    exact ⟨inner, j, stretched, (Except.ok.inj transposed).symm⟩

theorem exists_transposes (wide : 2 ≤ a.rank) (wide' : 2 ≤ b.rank) :
    ∃ a' b', a.transpose = .ok a' ∧ b.transpose = .ok b' ∧
      ((∃ r, matrixProduct b' a' = .ok r) ↔ ∃ p, matrixProduct a b = .ok p) ∧
      ∀ p, matrixProduct a b = .ok p → ∃ r, p.transpose = .ok r ∧ matrixProduct b' a' = .ok r := by
  obtain ⟨front, m, k, rfl⟩ := exists_matrices wide
  obtain ⟨front', k', n, rfl⟩ := exists_matrices wide'
  have turned (p : Shape)
      (made : matrixProduct (matrices front m k) (matrices front' k' n) = .ok p) :
      ∃ r, p.transpose = .ok r ∧
        matrixProduct (matrices front' n k') (matrices front k m) = .ok r := by
    obtain ⟨_, j, _, rfl⟩ := matrixProduct_matrices.1 made
    exact ⟨_, transpose_matrices, matrixProduct_transposed.2 ⟨_, made, transpose_matrices⟩⟩
  refine ⟨_, _, transpose_matrices, transpose_matrices, ⟨?_, ?_⟩, turned⟩
  · rintro ⟨r, made⟩
    obtain ⟨p, made', _⟩ := matrixProduct_transposed.1 made
    exact ⟨p, made'⟩
  · rintro ⟨p, made⟩
    obtain ⟨r, _, made'⟩ := turned p made
    exact ⟨r, made'⟩

/-! ### Three operands -/

theorem matrixProduct_matrixProduct_left :
    (matrixProduct (matrices front m k) (matrices front' k' n) >>= fun ab =>
      matrixProduct ab (matrices front'' n' l)) = .ok r ↔
    (k = k' ∧ n = n') ∧
      ∃ j, (broadcast ⟨front⟩ ⟨front'⟩ >>= fun ab => broadcast ab ⟨front''⟩) = .ok j ∧
        r = matrices j.dims m l := by
  simp only [bind_eq_ok_iff, matrixProduct_matrices]
  constructor
  · rintro ⟨_, ⟨inner, ab, first, rfl⟩, made⟩
    obtain ⟨inner', j, second, rfl⟩ := matrixProduct_matrices.1 made
    exact ⟨⟨inner, inner'⟩, j, ⟨ab, first, second⟩, rfl⟩
  · rintro ⟨⟨inner, inner'⟩, j, ⟨ab, first, second⟩, rfl⟩
    exact ⟨_, ⟨inner, ab, first, rfl⟩, matrixProduct_matrices.2 ⟨inner', j, second, rfl⟩⟩

theorem matrixProduct_matrixProduct_right :
    (matrixProduct (matrices front' k' n) (matrices front'' n' l) >>= fun bc =>
      matrixProduct (matrices front m k) bc) = .ok r ↔
    (k = k' ∧ n = n') ∧
      ∃ j, (broadcast ⟨front'⟩ ⟨front''⟩ >>= fun bc => broadcast ⟨front⟩ bc) = .ok j ∧
        r = matrices j.dims m l := by
  simp only [bind_eq_ok_iff, matrixProduct_matrices]
  constructor
  · rintro ⟨_, ⟨inner', bc, first, rfl⟩, made⟩
    obtain ⟨inner, j, second, rfl⟩ := matrixProduct_matrices.1 made
    exact ⟨⟨inner, inner'⟩, j, ⟨bc, first, second⟩, rfl⟩
  · rintro ⟨⟨inner, inner'⟩, j, ⟨bc, first, second⟩, rfl⟩
    exact ⟨_, ⟨inner', bc, first, rfl⟩, matrixProduct_matrices.2 ⟨inner, j, second, rfl⟩⟩

/-- Where no batch has an empty axis, how three operands are grouped does not matter. -/
theorem matrixProduct_assoc (wide : 2 ≤ a.rank) (wide' : 2 ≤ b.rank) (wide'' : 2 ≤ c.rank)
    (first : a.batch.Occupied) (second : b.batch.Occupied) (third : c.batch.Occupied) :
    (matrixProduct a b >>= fun ab => matrixProduct ab c) = .ok r ↔
      (matrixProduct b c >>= fun bc => matrixProduct a bc) = .ok r := by
  obtain ⟨front, m, k, rfl⟩ := exists_matrices wide
  obtain ⟨front', k', n, rfl⟩ := exists_matrices wide'
  obtain ⟨front'', n', l, rfl⟩ := exists_matrices wide''
  rw [batch_matrices] at first second third
  simp only [matrixProduct_matrixProduct_left, matrixProduct_matrixProduct_right,
    broadcast_assoc first second third]

/-- **Products are those of batches of matrices.** A vector on the left is multiplied as one row and
a vector on the right as one column, and the axis that was added is dropped from the result. For
operands of at least two axes, the transposes have a product the other way round if and only if the
operands have one, and it is the transpose of theirs. If no batch has an empty axis, how three such
operands are grouped does not matter, for the result and for whether there is one. -/
theorem matrixProduct_by_matrices (a b : Shape) :
    (∀ r, matrixProduct a b = .ok r ↔
      ∃ w, matrixProduct a.asRow b.asColumn = .ok w ∧ r = withoutAdded a b w) ∧
    (2 ≤ a.rank → 2 ≤ b.rank → ∃ a' b', a.transpose = .ok a' ∧ b.transpose = .ok b' ∧
      ((∃ r, matrixProduct b' a' = .ok r) ↔ ∃ p, matrixProduct a b = .ok p) ∧
      ∀ p, matrixProduct a b = .ok p → ∃ r, p.transpose = .ok r ∧ matrixProduct b' a' = .ok r) ∧
    (∀ c : Shape, 2 ≤ a.rank → 2 ≤ b.rank → 2 ≤ c.rank →
      a.batch.Occupied → b.batch.Occupied → c.batch.Occupied →
      ∀ r, (matrixProduct a b >>= fun ab => matrixProduct ab c) = .ok r ↔
        (matrixProduct b c >>= fun bc => matrixProduct a bc) = .ok r) :=
  ⟨fun _ => matrixProduct_eq_ok_iff_promoted, exists_transposes,
    fun _ wide wide' wide'' first second third _ =>
      matrixProduct_assoc wide wide' wide'' first second third⟩

/-- A vector times a batch, and batches of two axes, of one and of none. -/
theorem matrixProduct_by_matrices_batched :
    matrixProduct ⟨[3]⟩ ⟨[4, 3, 6]⟩ = .ok ⟨[4, 6]⟩ ∧
    (∃ r, transpose ⟨[5, 4, 2, 6]⟩ = .ok r ∧ matrixProduct ⟨[4, 6, 3]⟩ ⟨[5, 1, 3, 2]⟩ = .ok r) ∧
    (matrixProduct ⟨[4, 3, 6]⟩ ⟨[6, 0]⟩ >>= fun bc => matrixProduct ⟨[5, 1, 2, 3]⟩ bc) =
      .ok ⟨[5, 4, 2, 0]⟩ := by
  obtain ⟨_, transposed, grouped⟩ := matrixProduct_by_matrices ⟨[5, 1, 2, 3]⟩ ⟨[4, 3, 6]⟩
  refine ⟨?vector, ?turned, ?grouping⟩
  case vector =>
    exact ((matrixProduct_by_matrices ⟨[3]⟩ ⟨[4, 3, 6]⟩).1 _).2 ⟨⟨[4, 1, 6]⟩, rfl, rfl⟩
  case turned =>
    obtain ⟨a', b', turned, turned', _, product⟩ := transposed (by decide) (by decide)
    cases turned
    cases turned'
    exact product _ rfl
  case grouping =>
    exact (grouped ⟨[6, 0]⟩ (by decide) (by decide) (by decide) (by decide) (by decide)
      (by decide) _).1 rfl

end TensorGraph.Shape
