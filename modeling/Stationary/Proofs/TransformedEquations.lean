import Stationary.Proofs.Recasting

/-!
# Transformed equations

The equations of a system can be multiplied by an invertible matrix `M` : the residual becomes
`M F` and the Jacobian `M J` (`Recasting.equations`). This changes every pivot and every
intermediate number of the elimination. But `M J` is regular where `J` is, and then
`M J δ = -M F` has the solution of `J δ = -F`; so iterates and flags of failed steps stay the
same. Other flags may change, since the norm of the residual does.

If `M` only exchanges equations and changes signs, the norm stays the same as well
(`Matrix.IsSignedPermutation.norm_mulVec`), and with it the whole solution of a run.
-/

set_option linter.unusedSectionVars false

namespace Stationary

open Matrix Journaled

variable {𝕜 : Type} {n : Nat} [ExactArithmetic 𝕜]

theorem Vec.get_neg_eq (v : Vector 𝕜 n) : (Vec.neg v).get = -v.get :=
  funext fun i => Vec.get_neg v i

/-- The equations multiplied by an invertible matrix. -/
def Recasting.equations (M : Matrix (Fin n) (Fin n) 𝕜) (hM : IsUnit M) : Recasting 𝕜 n where
  unknowns := Equiv.refl _
  residual f := Vector.ofFn (M *ᵥ f.get)
  jacobian A := .ofMatrix (M * SquareMatrix.toMatrix A)
  unknowns_add _ _ := rfl
  regular_iff A := by
    have hdet : M.det ≠ 0 := isUnit_iff_ne_zero.1 ((Matrix.isUnit_iff_isUnit_det M).1 hM)
    rw [SquareMatrix.toMatrix_ofMatrix, Matrix.det_mul, mul_ne_zero_iff, and_iff_right hdet]
  isSolution A r x h := by
    have hx : SquareMatrix.toMatrix A *ᵥ x.get = -r.get :=
      (isSolution_iff_mulVec.1 h).trans (Vec.get_neg_eq r)
    have hr : (Vector.ofFn (M *ᵥ r.get)).get = M *ᵥ r.get := funext (Vector.get_ofFn _)
    rw [isSolution_iff_mulVec, SquareMatrix.toMatrix_ofMatrix, Vec.get_neg_eq, hr, Equiv.refl_apply,
      ← Matrix.mulVec_mulVec, hx, Matrix.mulVec_neg]

/-- The matrix `M` exchanges entries by a permutation and changes some of their signs. -/
def IsSignedPermutation (M : Matrix (Fin n) (Fin n) 𝕜) : Prop :=
  ∃ (σ : Equiv.Perm (Fin n)) (ε : Fin n → 𝕜), (∀ i, ε i = 1 ∨ ε i = -1) ∧
    ∀ i j, M i j = if j = σ i then ε i else 0

namespace IsSignedPermutation

variable {M : Matrix (Fin n) (Fin n) 𝕜}

theorem exists_mulVec (h : IsSignedPermutation M) : ∃ (σ : Equiv.Perm (Fin n)) (ε : Fin n → 𝕜),
    (∀ i, ε i = 1 ∨ ε i = -1) ∧ ∀ v i, (M *ᵥ v) i = ε i * v (σ i) := by
  obtain ⟨σ, ε, hε, hM⟩ := h
  refine ⟨σ, ε, hε, fun v i => ?_⟩
  simp [Matrix.mulVec, dotProduct, hM]

/-- Neither the exchanges nor the signs change the norm. -/
theorem norm_mulVec (h : IsSignedPermutation M) (v : Vector 𝕜 n) :
    Vec.norm (Vector.ofFn (M *ᵥ v.get)) = Vec.norm v := by
  obtain ⟨σ, ε, hε, hM⟩ := h.exists_mulVec
  have hsquare : ∀ i, ε i * ε i = 1 := by
    intro i
    rcases hε i with h | h <;> rw [h] <;> ring
  have hsum : Vec.sumSquares (Vector.ofFn (M *ᵥ v.get)) = Vec.sumSquares v := by
    unfold Vec.sumSquares
    rw [Vec.dot_eq, Vec.dot_eq]
    unfold dotProduct
    calc ∑ i, (Vector.ofFn (M *ᵥ v.get)).get i * (Vector.ofFn (M *ᵥ v.get)).get i
        = ∑ i, v.get (σ i) * v.get (σ i) := by
          refine Finset.sum_congr rfl fun i _ => ?_
          rw [Vector.get_ofFn, hM, mul_mul_mul_comm, hsquare, one_mul]
      _ = ∑ i, v.get i * v.get i := Equiv.sum_comp σ fun i => v.get i * v.get i
  unfold Vec.norm
  split
  · rename_i hn
    subst hn
    have hentry : (Vector.ofFn (M *ᵥ v.get))[0] = ε 0 * v[0] := by
      rw [Vector.getElem_ofFn]
      exact (hM v.get 0).trans (by rw [Subsingleton.elim (σ 0) 0]; rfl)
    have habs : |ε 0| = 1 := by
      rcases hε 0 with h | h <;> simp [h]
    show |(Vector.ofFn (M *ᵥ v.get))[0]| = |v[0]|
    rw [hentry, abs_mul, habs, one_mul]
  · rw [hsum]

end IsSignedPermutation

namespace Newton

variable [Decomposes 𝕜] {newton : Newton 𝕜} {system : System 𝕜 n} {y₀ : Vector 𝕜 n}

theorem walk_of_init_error {e : Failure} (h₀ : (newton.init system y₀).value = .error e)
    (k : Nat) : newton.walk system y₀ k = .error e := by
  induction k with
  | zero =>
    rw [walk, h₀]
    rfl
  | succ k ih =>
    rw [walk, ih]
    rfl

/-- In exact arithmetic, by elimination and with the pivot threshold zero, the equations may be
multiplied by any invertible matrix : from the same start the iterates are the same, and so are
the flags of the steps that failed, whatever the policy. They are there if the system has
values of the right shapes and a start. If the equations are only exchanged, and some of them
negated, a run has the same solution, for all tolerances and budgets. It has one if the
tolerances can be compared with, unless it goes on for ever because the counter cannot reach the
budget. -/
theorem transformed_equations_agree (newton : Newton 𝕜) (system : System 𝕜 n) (y₀ : Vector 𝕜 n)
    (h : newton.EliminatesExactly) (M : Matrix (Fin n) (Fin n) 𝕜) (hM : IsUnit M) :
    (∀ k, (newton.walk (system.recast (.equations M hM)) y₀ k).map
        (fun p => (p.1, p.2.stepFailed)) =
      (newton.walk system y₀ k).map fun p => (p.1, p.2.stepFailed)) ∧
    (IsSignedPermutation M → (newton.run (system.recast (.equations M hM)) y₀).value =
      (newton.run system y₀).value) ∧
    ∀ s₀, system.IsSquare → (newton.init system y₀).value = .ok s₀ →
      (∀ k, ∃ y s, newton.walk system y₀ k = .ok (y, s)) ∧
      (newton.checkTolerances = .ok () →
        (∃ solution, (newton.run system y₀).value = .ok solution) ∨
          newton.GoesOn system y₀ ∧ ¬newton.machine.Counts newton.maxSteps) := by
  have hmasks : ∀ mask, MasksCorrespond (Recasting.equations M hM) mask mask := fun _ _ => rfl
  refine ⟨fun k => ?_, fun hperm => ?_, fun s₀ hsq h₀ =>
    ⟨exists_walk hsq h.checkPivots h₀, fun ht => exists_solution_or_goesOn hsq h₀ ht h.checkPivots⟩⟩
  · cases h₀ : (newton.init system y₀).value with
    | error e =>
      have h₀' := value_init_recast_of_error (.equations M hM) h₀
      rw [walk_of_init_error h₀]
      exact congrArg _ (walk_of_init_error h₀' k)
    | ok s₀ =>
      obtain ⟨-, -, -, -, ⟨mask, hm⟩, -⟩ := value_init_eq_ok_iff.1 h₀
      have hwalk := walk_recast h h₀ hm hm (hmasks mask) k
      refine (congrArg _ hwalk).trans ?_
      rw [map_map_eq]
      rfl
  · cases h₀ : (newton.init system y₀).value with
    | error e =>
      have h₀' := value_init_recast_of_error (.equations M hM) h₀
      rw [value_run_eq_error_iff.2 (Or.inl h₀)]
      exact value_run_eq_error_iff.2 (Or.inl h₀')
    | ok s₀ =>
      obtain ⟨-, -, -, -, ⟨mask, hm⟩, -⟩ := value_init_eq_ok_iff.1 h₀
      have hrun := value_run_recast h h₀ hm hm (hmasks mask) hperm.norm_mulVec
      exact hrun.trans (map_id_eq _)

/-- The second equation in place of the first one, and the first one negated in place of the
second. -/
def turned : Matrix (Fin 2) (Fin 2) ℚ :=
  !![0, 1; -1, 0]

/-- With its equations turned, so that no row has to be exchanged, the system with the root `(3,
-4)` has the same solution. -/
theorem run_turned_exchangedEquations :
    ∃ hM : IsUnit turned, exactRational.EliminatesExactly ∧ IsSignedPermutation turned ∧
      ∃ solution, (exactRational.run exchangedEquations #v[0, 0]).value = .ok solution ∧
        (exactRational.run (exchangedEquations.recast (.equations turned hM)) #v[0, 0]).value =
          .ok solution := by
  have hM : IsUnit turned := by
    rw [Matrix.isUnit_iff_isUnit_det, turned, Matrix.det_fin_two_of]
    norm_num
  have hperm : IsSignedPermutation turned := by
    refine ⟨Equiv.swap 0 1, ![1, -1], fun i => ?_, fun i j => ?_⟩
    · fin_cases i <;> simp
    · fin_cases i <;> fin_cases j <;> simp [turned]
  have hsq : exchangedEquations.IsSquare := System.isSquare_ofMaps _ _
  have h₀ : (exactRational.init exchangedEquations #v[0, 0]).value =
      .ok (.initial #v[(0 : ℚ) + 4, 2 * 0 - 6]) :=
    value_init_eq_ok_iff.2 ⟨two_ne_zero, _, System.residualVector_ofMaps _ _ _, rfl,
      ⟨#v[false, false], rfl⟩, rfl⟩
  obtain ⟨-, hrun, hreturns⟩ := transformed_equations_agree exactRational exchangedEquations
    #v[0, 0] eliminatesExactly_exactRational turned hM
  obtain ⟨-, hsolution⟩ := hreturns _ hsq h₀
  obtain ⟨solution, hsol⟩ := (hsolution rfl).resolve_right fun hon => hon.2 (by decide)
  exact ⟨hM, eliminatesExactly_exactRational, hperm, solution, hsol, (hrun hperm).trans hsol⟩

end Newton

end Stationary
