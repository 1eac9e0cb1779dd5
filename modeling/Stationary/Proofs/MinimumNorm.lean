import Stationary.Proofs.DefinedSteps

/-!
# Least squares of minimum norm

A vector `x` solves the least-squares problem of `A` and `b` if it satisfies the normal equations
`Aᵀ (A x - b) = 0` (`IsLeastSquares`). Let `d` be an exact decomposition of `A` in which every
singular value is zero or does not count as zero (`Svd.HasGap`). Then the weights are inverses,
with zero as the inverse of zero, and the matrix `P` that `Svd.solve` applies satisfies
`Aᵀ A P = Aᵀ`, so that `P b` is a solution. Moreover `P = Aᵀ Q` for some `Q`, so `P b` is orthogonal
to the kernel of `A` (`Svd.IsExact.dotProduct_solve_eq_zero`). Two solutions differ by a vector of
the kernel, and so every other one is longer than `P b`.

The rank of `A` plays no part in this. For the matrix of zeros the cutoff is zero too, and all
weights are zero because they are not positive.
-/

set_option linter.unusedSectionVars false

namespace Stationary

open Matrix WithUndefined

variable {𝕜 : Type} {n : Nat} [ExactArithmetic 𝕜]

/-- The vector `x` satisfies the normal equations of `A` and `b`. -/
def IsLeastSquares (A : SquareMatrix 𝕜 n) (b x : Vector 𝕜 n) : Prop :=
  A.toMatrixᵀ *ᵥ (A.toMatrix *ᵥ x.get - b.get) = 0

/-- Two solutions differ by a vector of the kernel. -/
theorem IsLeastSquares.mulVec_sub_eq_zero {A : SquareMatrix 𝕜 n} {b x y : Vector 𝕜 n}
    (hx : IsLeastSquares A b x) (hy : IsLeastSquares A b y) :
    A.toMatrix *ᵥ (x.get - y.get) = 0 := by
  have hnormal : A.toMatrixᵀ *ᵥ (A.toMatrix *ᵥ (x.get - y.get)) = 0 := by
    have hdifference : A.toMatrix *ᵥ (x.get - y.get) =
        (A.toMatrix *ᵥ x.get - b.get) - (A.toMatrix *ᵥ y.get - b.get) := by
      rw [mulVec_sub, sub_sub_sub_cancel_right]
    rw [hdifference, mulVec_sub, hx, hy, sub_zero]
  have hsquares : (A.toMatrix *ᵥ (x.get - y.get)) ⬝ᵥ (A.toMatrix *ᵥ (x.get - y.get)) = 0 := by
    rw [dotProduct_mulVec, ← mulVec_transpose, hnormal, zero_dotProduct]
  exact dotProduct_self_eq_zero.1 hsquares

namespace Svd

/-- Every singular value is zero or does not count as zero. -/
def HasGap (d : Svd 𝕜 n) : Prop :=
  ∀ i, d.values.get i = 0 ∨ d.cutoff ≤ d.values.get i

variable {d : Svd 𝕜 n} {A : SquareMatrix 𝕜 n}

namespace IsExact

theorem weights_eq (h : d.IsExact A) (hg : d.HasGap) : d.weights = fun i => (d.values.get i)⁻¹ := by
  funext i
  refine weights_eq_inv ?_
  rcases (h.nonneg i).eq_or_lt with hzero | hpos
  · exact Or.inl hzero.symm
  · exact Or.inr ⟨hpos, (hg i).resolve_left hpos.ne'⟩

theorem transpose_eq (h : d.IsExact A) :
    A.toMatrixᵀ = d.rightMatrix * diagonal d.values.get * d.leftMatrixᵀ := by
  rw [h.product, transpose_mul, transpose_mul, transpose_transpose, diagonal_transpose,
    Matrix.mul_assoc]

/-- What is applied to right-hand sides gives solutions of the normal equations. -/
theorem transpose_mul_mul_pseudoInverse (h : d.IsExact A) (hg : d.HasGap) :
    A.toMatrixᵀ * (A.toMatrix * d.pseudoInverse) = A.toMatrixᵀ := by
  have hvalues : diagonal d.values.get * diagonal d.values.get * diagonal d.weights =
      diagonal d.values.get := by
    rw [diagonal_mul_diagonal, diagonal_mul_diagonal, h.weights_eq hg]
    exact congrArg diagonal (funext fun i => mul_self_mul_inv _)
  calc A.toMatrixᵀ * (A.toMatrix * d.pseudoInverse)
      = d.rightMatrix * (diagonal d.values.get * (d.leftMatrixᵀ * d.leftMatrix) *
          diagonal d.values.get * (d.rightMatrixᵀ * d.rightMatrix) * diagonal d.weights) *
          d.leftMatrixᵀ := by
        rw [h.transpose_eq, h.product, pseudoInverse]
        simp only [Matrix.mul_assoc]
    _ = A.toMatrixᵀ := by
        rw [h.left, h.right, Matrix.mul_one, Matrix.mul_one, hvalues, h.transpose_eq]

/-- What is applied to right-hand sides has its image in that of the transpose. -/
theorem pseudoInverse_eq (h : d.IsExact A) (hg : d.HasGap) :
    d.pseudoInverse = A.toMatrixᵀ *
      (d.leftMatrix * (diagonal d.weights * diagonal d.weights) * d.leftMatrixᵀ) := by
  have hweights : diagonal d.values.get * (diagonal d.weights * diagonal d.weights) =
      diagonal d.weights := by
    rw [diagonal_mul_diagonal, diagonal_mul_diagonal, h.weights_eq hg]
    refine congrArg diagonal (funext fun i => ?_)
    have hinverse := mul_self_mul_inv (d.values.get i)⁻¹
    rwa [inv_inv, mul_comm] at hinverse
  calc d.pseudoInverse
      = d.rightMatrix * (diagonal d.values.get * (d.leftMatrixᵀ * d.leftMatrix) *
          (diagonal d.weights * diagonal d.weights)) * d.leftMatrixᵀ := by
        rw [h.left, Matrix.mul_one, hweights, pseudoInverse]
    _ = _ := by
        rw [h.transpose_eq]
        simp only [Matrix.mul_assoc]

theorem isLeastSquares_solve (h : d.IsExact A) (hg : d.HasGap) (b : Vector 𝕜 n) :
    IsLeastSquares A b (d.solve b) := by
  unfold IsLeastSquares
  rw [get_solve, mulVec_sub, mulVec_mulVec, mulVec_mulVec, Matrix.mul_assoc,
    h.transpose_mul_mul_pseudoInverse hg, sub_self]

/-- The step is orthogonal to the kernel. -/
theorem dotProduct_solve_eq_zero (h : d.IsExact A) (hg : d.HasGap) (b : Vector 𝕜 n)
    {z : Fin n → 𝕜} (hz : A.toMatrix *ᵥ z = 0) : z ⬝ᵥ (d.solve b).get = 0 := by
  rw [get_solve, h.pseudoInverse_eq hg, ← mulVec_mulVec, mulVec_transpose, dotProduct_comm,
    ← dotProduct_mulVec, hz, dotProduct_zero]

/-- Every other solution of the normal equations is longer. -/
theorem sumSquares_solve_lt (h : d.IsExact A) (hg : d.HasGap) {b x : Vector 𝕜 n}
    (hx : IsLeastSquares A b x) (hne : x ≠ d.solve b) :
    Vec.sumSquares (d.solve b) < Vec.sumSquares x := by
  let z := x.get - (d.solve b).get
  have horthogonal : z ⬝ᵥ (d.solve b).get = 0 :=
    h.dotProduct_solve_eq_zero hg b (hx.mulVec_sub_eq_zero (h.isLeastSquares_solve hg b))
  have hz : z ≠ 0 := fun h0 => hne (Vec.ext_get fun i => congrFun (sub_eq_zero.1 h0) i)
  have hsum : x.get ⬝ᵥ x.get = (d.solve b).get ⬝ᵥ (d.solve b).get + z ⬝ᵥ z := by
    have hx' : x.get = (d.solve b).get + z := (add_sub_cancel _ _).symm
    rw [hx', add_dotProduct, dotProduct_add, dotProduct_add, dotProduct_comm _ z, horthogonal]
    ring
  have hpos : 0 < z ⬝ᵥ z :=
    (Finset.sum_nonneg fun i _ => mul_self_nonneg (z i)).lt_of_ne'
      fun h0 => hz (dotProduct_self_eq_zero.1 h0)
  unfold Vec.sumSquares
  rw [Vec.dot_eq, Vec.dot_eq, hsum]
  exact lt_add_of_pos_right _ hpos

end IsExact

end Svd

/-! ## The Euclidean norm -/

section Roots

variable [ExactRoots 𝕜]

theorem ExactRoots.root_lt_root {x y : 𝕜} (hx : 0 ≤ x) (h : x < y) :
    ExactArithmetic.root x < ExactArithmetic.root y := by
  refine lt_of_mul_self_lt_mul_self₀ (ExactRoots.root_nonneg (hx.trans h.le)) ?_
  rw [ExactRoots.root_mul_root hx, ExactRoots.root_mul_root (hx.trans h.le)]
  exact h

theorem Vec.norm_lt_norm {u v : Vector 𝕜 n} (h : sumSquares u < sumSquares v) :
    norm u < norm v := by
  unfold norm
  split
  · rename_i hn
    subst hn
    unfold sumSquares at h
    rw [dot_eq, dot_eq, dotProduct, dotProduct, Fin.sum_univ_one, Fin.sum_univ_one] at h
    exact abs_lt_iff_mul_self_lt.2 h
  · exact ExactRoots.root_lt_root (Vec.sumSquares_nonneg u) h

variable [Decomposes (WithUndefined 𝕜)] {A : SquareMatrix 𝕜 n} {d : Svd 𝕜 n}

/-- The step of least squares over an exact decomposition, in which every singular value is zero or
does not count as zero, can always be used. It satisfies the normal equations, and everything else
that satisfies them is longer. -/
theorem LinearStep.exactLeastSquares_minimumNorm
    (hd : Decomposes.svd (SquareMatrix.numbers A) = d.numbers) (h : d.IsExact A) (hg : d.HasGap)
    (b : Vector 𝕜 n) :
    (exactLeastSquares A b).usable = true ∧
      ∃ δ : Vector 𝕜 n, (exactLeastSquares A b).delta = Vec.numbers δ ∧ IsLeastSquares A b δ ∧
        ∀ x, IsLeastSquares A b x → x ≠ δ → Vec.norm δ < Vec.norm x := by
  rw [exactLeastSquares_eq hd]
  exact ⟨rfl, d.solve b, rfl, h.isLeastSquares_solve hg b,
    fun x hx hne => Vec.norm_lt_norm (h.sumSquares_solve_lt hg hx hne)⟩

end Roots

/-! ## A matrix of rank one -/

/-- A matrix of rank one. -/
def rankOne : SquareMatrix ℝ 2 :=
  SquareMatrix.ofMatrix !![3, 4; 0, 0]

/-- Its decomposition : the unit vectors, the values five and zero, and a rotation. -/
noncomputable def rankOneSvd : Svd ℝ 2 where
  left := SquareMatrix.ofMatrix 1
  values := Vector.ofFn ![5, 0]
  right := SquareMatrix.ofMatrix !![3 / 5, 4 / 5; -4 / 5, 3 / 5]

theorem rankOneSvd_values : rankOneSvd.values.get = ![5, 0] :=
  funext (Vector.get_ofFn _)

theorem isExact_rankOneSvd : rankOneSvd.IsExact rankOne where
  left := by
    simp [Svd.leftMatrix, rankOneSvd]
  right := by
    simp only [Svd.rightMatrix, rankOneSvd, SquareMatrix.toMatrix_ofMatrix, transpose_transpose]
    ext i j
    fin_cases i <;> fin_cases j <;> norm_num [mul_apply]
  nonneg := by
    rw [rankOneSvd_values]
    simp [Fin.forall_fin_two]
  product := by
    rw [rankOneSvd_values]
    simp only [Svd.leftMatrix, Svd.rightMatrix, rankOneSvd, rankOne, SquareMatrix.toMatrix_ofMatrix,
      transpose_transpose, transpose_one, Matrix.one_mul]
    ext i j
    fin_cases i <;> fin_cases j <;> norm_num [mul_apply]

theorem hasGap_rankOneSvd : rankOneSvd.HasGap := by
  have hcutoff : rankOneSvd.cutoff = 10 * ((2 ^ 52 : ℕ) : ℝ)⁻¹ := by
    show ((2 : ℕ) : ℝ) * ((2 ^ 52 : ℕ) : ℝ)⁻¹ * max (max 0 5) 0 = _
    norm_num
  unfold Svd.HasGap
  rw [rankOneSvd_values, hcutoff, Fin.forall_fin_two]
  exact ⟨Or.inr (by norm_num), Or.inl rfl⟩

/-- Matrices with two rows are taken apart as `d` says. -/
@[reducible] noncomputable def Svd.ofTwoRows (d : Svd ℝ 2) : Decomposes (WithUndefined ℝ) where
  svd {n} A :=
    match n, A with
    | 2, _ => d.numbers
    | _, A => ⟨A, Vector.replicate _ 0, A⟩

/-- The first equation has a line of solutions, and the second one none. -/
theorem LinearStep.exactLeastSquares_minimumNorm_rankOne :
    letI : Decomposes (WithUndefined ℝ) := rankOneSvd.ofTwoRows
    (exactLeastSquares rankOne #v[10, 7]).usable = true ∧
      ∃ δ : Vector ℝ 2, (exactLeastSquares rankOne #v[10, 7]).delta = Vec.numbers δ ∧
        IsLeastSquares rankOne #v[10, 7] δ ∧
          ∀ x, IsLeastSquares rankOne #v[10, 7] x → x ≠ δ → Vec.norm δ < Vec.norm x :=
  letI : Decomposes (WithUndefined ℝ) := rankOneSvd.ofTwoRows
  exactLeastSquares_minimumNorm rfl isExact_rankOneSvd hasGap_rankOneSvd #v[10, 7]

end Stationary
