import Stationary.Proofs.Regularity

/-!
# Singular values in exact arithmetic

`Svd.IsExact d A` says that `d` is a singular value decomposition of `A` : the left and the right
vectors are orthonormal, no singular value is negative, and `A = U diag(s) Vᵀ`. Nothing is
said of how `d` was found. What `Svd.solve` applies to a right-hand side is the matrix
`V diag(w) Uᵀ` (`Svd.pseudoInverse`, `Svd.get_solve`).

If no singular value counts as zero (`Svd.IsRegular`), the weights are the inverses of the
singular values, and this matrix is the inverse of `A` (`Svd.IsExact.mul_pseudoInverse`). So the
matrix is regular, and the step of least squares is the one solution there is. Elimination finds
it too, so both linear steps are the same if only the pivot test is passed
(`LinearStep.lu_eq_leastSquares`).
-/

set_option linter.unusedSectionVars false

namespace Stationary

open Matrix

variable {𝕜 : Type} {n : Nat} [ExactArithmetic 𝕜]

namespace Svd

/-- The matrix whose columns are the left vectors. -/
def leftMatrix (d : Svd 𝕜 n) : Matrix (Fin n) (Fin n) 𝕜 :=
  (SquareMatrix.toMatrix d.left)ᵀ

/-- The matrix whose columns are the right vectors. -/
def rightMatrix (d : Svd 𝕜 n) : Matrix (Fin n) (Fin n) 𝕜 :=
  (SquareMatrix.toMatrix d.right)ᵀ

/-- The weights of the singular values. -/
def weights (d : Svd 𝕜 n) : Fin n → 𝕜 :=
  fun i => d.weight (d.values.get i)

/-- The matrix that `Svd.solve` applies. -/
def pseudoInverse (d : Svd 𝕜 n) : Matrix (Fin n) (Fin n) 𝕜 :=
  d.rightMatrix * diagonal d.weights * d.leftMatrixᵀ

/-- `d` is a singular value decomposition of `A`. -/
structure IsExact (d : Svd 𝕜 n) (A : SquareMatrix 𝕜 n) : Prop where
  left : d.leftMatrixᵀ * d.leftMatrix = 1
  right : d.rightMatrixᵀ * d.rightMatrix = 1
  nonneg : ∀ i, 0 ≤ d.values.get i
  product : A.toMatrix = d.leftMatrix * diagonal d.values.get * d.rightMatrixᵀ

/-- All singular values are positive and at least `n · eps` times the largest one. -/
def IsRegular (d : Svd 𝕜 n) : Prop :=
  ∀ i, 0 < d.values.get i ∧ d.cutoff ≤ d.values.get i

variable {d : Svd 𝕜 n} {A : SquareMatrix 𝕜 n}

theorem get_coordinates (d : Svd 𝕜 n) (b : Vector 𝕜 n) :
    (d.coordinates b).get = diagonal d.weights *ᵥ (d.leftMatrixᵀ *ᵥ b.get) := by
  ext i
  have hentry : (d.coordinates b).get i = d.weights i * Vec.dot (d.left.get i) b :=
    Vector.getElem_zipWith i.isLt
  rw [hentry, Vec.dot_eq, mulVec_diagonal]
  rfl

theorem get_solve (d : Svd 𝕜 n) (b : Vector 𝕜 n) :
    (d.solve b).get = d.pseudoInverse *ᵥ b.get := by
  have hrows : (d.solve b).get = d.rightMatrix *ᵥ (d.coordinates b).get := by
    ext i
    unfold solve
    rw [Vector.get_ofFn, Vec.dot_eq]
    refine congrArg (· ⬝ᵥ (d.coordinates b).get) (funext fun j => ?_)
    rw [Vec.get_map]
    rfl
  rw [hrows, get_coordinates, mulVec_mulVec, mulVec_mulVec, pseudoInverse, Matrix.mul_assoc]

/-- A singular value that is zero or does not count as zero has its inverse as weight, where the
inverse of zero is zero. -/
theorem weights_eq_inv {i : Fin n}
    (h : d.values.get i = 0 ∨ 0 < d.values.get i ∧ d.cutoff ≤ d.values.get i) :
    d.weights i = (d.values.get i)⁻¹ := by
  unfold weights weight
  rcases h with hzero | ⟨hpos, hcut⟩
  · -- over a field the quotient by zero is zero too
    simp [hzero]
  · have hlt : Scalar.lt 0 (d.values.get i) = true := decide_eq_true hpos
    have hle : Scalar.le d.cutoff (d.values.get i) = true := decide_eq_true hcut
    rw [hlt, hle]
    exact one_div _

namespace IsExact

/-- If no singular value counts as zero, what is applied to right-hand sides is the inverse. -/
theorem mul_pseudoInverse (h : d.IsExact A) (hr : d.IsRegular) :
    A.toMatrix * d.pseudoInverse = 1 := by
  have hvalues : diagonal d.values.get * diagonal d.weights = 1 := by
    rw [diagonal_mul_diagonal, ← diagonal_one]
    congr 1
    ext i
    rw [weights_eq_inv (Or.inr (hr i)), mul_inv_cancel₀ (hr i).1.ne']
  have hleft : d.leftMatrix * d.leftMatrixᵀ = 1 := mul_eq_one_comm.1 h.left
  calc A.toMatrix * d.pseudoInverse
      = d.leftMatrix * (diagonal d.values.get * (d.rightMatrixᵀ * d.rightMatrix) *
          diagonal d.weights) * d.leftMatrixᵀ := by
        rw [h.product, pseudoInverse]
        simp only [Matrix.mul_assoc]
    _ = d.leftMatrix * d.leftMatrixᵀ := by
        rw [h.right, Matrix.mul_one, hvalues, Matrix.mul_one]
    _ = 1 := hleft

theorem det_ne_zero (h : d.IsExact A) (hr : d.IsRegular) : A.toMatrix.det ≠ 0 :=
  det_ne_zero_of_right_inverse (h.mul_pseudoInverse hr)

theorem isSolution_solve (h : d.IsExact A) (hr : d.IsRegular) (b : Vector 𝕜 n) :
    IsSolution A b (d.solve b) := by
  rw [isSolution_iff_mulVec, get_solve, mulVec_mulVec, h.mul_pseudoInverse hr, one_mulVec]

end IsExact

end Svd

/-- By elimination and by least squares the linear steps are the same, if the pivot test is
passed and no singular value of an exact decomposition counts as zero. -/
theorem LinearStep.lu_eq_leastSquares [Decomposes 𝕜] {A : SquareMatrix 𝕜 n} {b : Vector 𝕜 n}
    {rtol : 𝕜} (hpass : (factor A).isSingular rtol = false)
    (h : (Decomposes.svd A).IsExact A) (hr : (Decomposes.svd A).IsRegular) :
    LinearStep.lu A b rtol = LinearStep.leastSquares A b := by
  have hdelta : (factor A).solve b = (Decomposes.svd A).solve b :=
    ((isSolution_iff_eq_solve (pivots_ne_zero_iff.2 (h.det_ne_zero hr))).1
      (h.isSolution_solve hr b)).symm
  unfold LinearStep.lu LinearStep.leastSquares
  simp only [hdelta, hpass, Factors.allFinite_exact, Bool.not_false, Bool.true_and]

end Stationary
