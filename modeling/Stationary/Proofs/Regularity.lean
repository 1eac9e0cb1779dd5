import Stationary.Proofs.TriangularFactors

/-!
# Regular matrices

In exact arithmetic elimination finds out whether a matrix is regular. The determinant is up to
its sign the product of the pivots, so they are all different from zero if and only if it is
(`pivots_ne_zero_iff`), and with the threshold zero this is when a step can be used
(`LinearStep.usable_lu_zero_iff`).

Hence neither the flag of a step nor the step depends on the course of the elimination, and two
systems of equations whose solutions correspond have steps that do (`LinearStep.lu_image`).
-/

set_option linter.unusedSectionVars false

namespace Stationary

open Matrix

variable {𝕜 : Type} {n : Nat} [ExactArithmetic 𝕜]

/-! ## Determinants -/

@[simp] theorem Vec.get_zero (i : Fin n) : (0 : Vector 𝕜 n).get i = 0 :=
  Vector.getElem_replicate i.isLt

theorem SquareMatrix.det_eq_zero_iff {A : SquareMatrix 𝕜 n} :
    A.toMatrix.det = 0 ↔ ∃ x, x ≠ 0 ∧ IsSolution A 0 x := by
  rw [← Matrix.exists_mulVec_eq_zero_iff]
  have hzero : (0 : Vector 𝕜 n).get = 0 := funext Vec.get_zero
  constructor
  · rintro ⟨v, hv, h⟩
    have hget : (Vector.ofFn v).get = v := funext (Vector.get_ofFn v)
    refine ⟨Vector.ofFn v, fun h0 => hv ?_, ?_⟩
    · rw [← hget, h0, hzero]
    · rw [isSolution_iff_mulVec, hget, h, hzero]
  · rintro ⟨x, hx, h⟩
    refine ⟨x.get, fun h0 => hx (Vec.ext_get fun i => ?_), ?_⟩
    · rw [h0, hzero]
    · rw [isSolution_iff_mulVec.1 h, hzero]

/-- No pivot is zero if and only if the matrix is regular. -/
theorem pivots_ne_zero_iff {A : SquareMatrix 𝕜 n} :
    (∀ p ∈ (factor A).pivots, p ≠ 0) ↔ A.toMatrix.det ≠ 0 := by
  rw [← abs_ne_zero, abs_det_eq_prod_pivots, Ne, List.prod_eq_zero_iff]
  constructor
  · intro h h0
    exact h 0 h0 rfl
  · rintro h p hp rfl
    exact h hp

/-! ## Steps -/

namespace LinearStep

variable {A A' : SquareMatrix 𝕜 n} {b b' : Vector 𝕜 n}

/-- With the threshold zero a step by elimination can be used if and only if the matrix is
regular. -/
theorem usable_lu_zero_iff : (lu A b 0).usable = true ↔ A.toMatrix.det ≠ 0 := by
  rw [usable_lu_iff, ← pivots_ne_zero_iff]
  refine forall₂_congr fun p hp => ?_
  rw [zero_mul]
  exact ((factor A).pivots_nonneg p hp).lt_iff_ne'

/-- Two systems of equations that are both regular or both not, with a map from the solutions of the
first one to those of the second, have the same flag, and steps that correspond. -/
theorem lu_image {e : Vector 𝕜 n → Vector 𝕜 n}
    (hdet : A'.toMatrix.det ≠ 0 ↔ A.toMatrix.det ≠ 0)
    (hsol : ∀ x, IsSolution A b x → IsSolution A' b' (e x)) :
    (lu A' b' 0).usable = (lu A b 0).usable ∧
      ((lu A b 0).usable = true → (lu A' b' 0).delta = e (lu A b 0).delta) := by
  have hflag : (lu A' b' 0).usable = true ↔ (lu A b 0).usable = true := by
    rw [usable_lu_zero_iff, usable_lu_zero_iff, hdet]
  refine ⟨Bool.eq_iff_iff.2 hflag, fun hu => ?_⟩
  have hdelta : IsSolution A b (lu A b 0).delta := (isSolution_iff_eq_delta le_rfl hu).2 rfl
  exact ((isSolution_iff_eq_delta le_rfl (hflag.2 hu)).1 (hsol _ hdelta)).symm

end LinearStep

end Stationary
