import Mathlib
import Stationary.Kkt
import Stationary.Proofs.Exclusive
import Stationary.Proofs.ProjectedSteps
import Stationary.Proofs.Regularity

/-!
# A Jacobian of deficient rank

The Jacobian of the reference problem has the vector `(0, 0, 1, 1, 1, 0)` in its kernel,
wherever it is evaluated and whatever the data are : the multipliers of the three
inequalities enter the two derivatives of the Lagrangian alone, and they cancel there
(`Kkt.isSolution_kernel`). So its determinant is zero, elimination meets a zero pivot whichever
rows it exchanges, and no threshold that is not negative lets a step through
(`LinearStep.usable_lu_of_det`).

A run whose first step cannot be used ends where it starts (`Newton.value_run_of_stuck`). By
elimination this is what all runs on the reference problem do
(`Kkt.elimination_never_moves`).
-/

set_option linter.unusedSectionVars false

namespace Stationary

/-! ## Runs whose first step cannot be used -/

namespace Newton

variable {α : Type} {n : Nat} [Scalar α] [Decomposes α] {newton : Newton α}
  {system : System α n} {y₀ : Vector α n} {s₀ : State α n}

/-- If the step from the start cannot be used, a run ends at its start : at once if a flag is up
or the budget is zero, and otherwise after this one step, for a singular Jacobian. -/
theorem value_run_of_stuck (hsq : system.IsSquare) (h₀ : (newton.init system y₀).value = .ok s₀)
    (ht : newton.checkTolerances = .ok ()) (hp : newton.checkPivots = .ok ())
    (hstuck : ∀ d, newton.Solves system y₀ s₀ d → d.usable = false) :
    (newton.run system y₀).value =
      if newton.maxSteps = 0 ∨ (newton.status s₀).raised = true then .ok (newton.ending y₀ s₀)
      else .ok { value := y₀, outcome := .singularJacobian, steps := 1,
                 residualNorm := s₀.norm } := by
  have hstart : Visits newton system y₀ 0 y₀ s₀ := .start h₀ ht
  by_cases hend : newton.maxSteps = 0 ∨ (newton.status s₀).raised = true
  · rw [if_pos hend]
    refine hstart.value_run_of_last (hend.imp_left fun hbudget => ?_)
    rw [hbudget, Machine.counted_zero]
    exact Int.le_refl 0
  · rw [if_neg hend]
    rw [not_or, Bool.not_eq_true] at hend
    obtain ⟨hbudget, hraised⟩ := hend
    obtain ⟨-, -, -, -, ⟨mask, hm⟩, -⟩ := value_init_eq_ok_iff.1 h₀
    obtain ⟨y, s, hstep⟩ := exists_step hsq hp hm y₀ s₀
    obtain ⟨d, hd, -⟩ := stepFailed_step hstep
    have hbudget : newton.machine.counted 0 < newton.maxSteps := by
      rw [Machine.counted_zero]
      exact Int.ofNat_lt.2 (Nat.pos_of_ne_zero hbudget)
    have hrun := hstart.value_run_of_unusable hbudget hraised hd (hstuck d hd)
    rwa [Nat.zero_add, Machine.counted_one] at hrun

end Newton

/-! ## Singular matrices -/

variable {𝕜 : Type} {n : Nat} [ExactArithmetic 𝕜]

/-- With a threshold that is not negative, no step by elimination can be used where the matrix is
singular. -/
theorem LinearStep.usable_lu_of_det {A : SquareMatrix 𝕜 n} {b : Vector 𝕜 n} {rtol : 𝕜}
    (hr : 0 ≤ rtol) (hdet : A.toMatrix.det = 0) : (LinearStep.lu A b rtol).usable = false := by
  rw [Bool.eq_false_iff]
  intro hu
  refine pivots_ne_zero_iff.1 (fun p hp => ne_of_gt ?_) hdet
  have hlarge : 0 ≤ rtol * (factor A).largestPivot :=
    mul_nonneg hr (factor A).largestPivot_nonneg
  exact hlarge.trans_lt (LinearStep.usable_lu_iff.1 hu p hp)

namespace Newton

variable [Decomposes 𝕜] {newton : Newton 𝕜} {system : System 𝕜 n} {y : Vector 𝕜 n}
  {s : State 𝕜 n} {d : LinearStep 𝕜 n}

/-- The pivot threshold is left out, or it is one that is not negative. -/
def PivotsNonnegative (newton : Newton 𝕜) : Prop :=
  newton.pivotRtol = .standard ∨ ∃ r, 0 ≤ r ∧ newton.pivotRtol = .relative r

theorem PivotsNonnegative.checkPivots (h : newton.PivotsNonnegative) :
    newton.checkPivots = .ok () := by
  unfold Newton.checkPivots
  rcases h with h | ⟨r, -, h⟩
  · rw [h]
    cases newton.linearMethod <;> rfl
  · rw [h]
    cases newton.linearMethod <;> rfl

/-- By elimination no step can be used where the Jacobian is singular. -/
theorem Solves.unusable_of_det (h : newton.Solves system y s d) (hlu : newton.linearMethod = .lu)
    (hp : newton.PivotsNonnegative)
    (hdet : ∀ A, system.jacobianMatrix y = .ok A → A.toMatrix.det = 0) : d.usable = false := by
  obtain ⟨A, r, hA, hthreshold, rfl⟩ := h.eq_lu hlu
  refine LinearStep.usable_lu_of_det ?_ (hdet A hA)
  rcases hthreshold with ⟨-, rfl⟩ | hrelative
  · exact mul_nonneg (Nat.cast_nonneg n) ExactArithmetic.roundoff_nonneg
  · rcases hp with hstandard | ⟨r', hr', h'⟩
    · rw [hrelative] at hstandard
      cases hstandard
    · rw [hrelative] at h'
      cases h'
      exact hr'

end Newton

/-! ## The reference problem -/

namespace Kkt

/-- The direction in which the derivatives of the Lagrangian do not change. -/
def kernel : Vector 𝕜 6 :=
  #v[0, 0, 1, 1, 1, 0]

theorem isSolution_kernel (y : Vector 𝕜 6) : IsSolution (jacobian y) 0 kernel := by
  unfold IsSolution
  simp only [Vec.dot_eq, dotProduct, Fin.sum_univ_succ, Fin.forall_fin_succ, Vec.get_zero]
  simp [jacobian, kernel, Vector.get_eq_getElem]

theorem det_jacobian (y : Vector 𝕜 6) : (jacobian y).toMatrix.det = 0 := by
  refine SquareMatrix.det_eq_zero_iff.2 ⟨kernel, fun h => ?_, isSolution_kernel y⟩
  have hentry : (kernel : Vector 𝕜 6).get 2 = 0 := by rw [h, Vec.get_zero]
  exact one_ne_zero hentry

theorem isSquare_system (p : Kkt 𝕜) : p.system.IsSquare :=
  System.isSquare_ofMaps _ _

/-- The start of a run on the reference problem, which needs a mask and nothing else. -/
theorem value_init_system {α : Type} [Scalar α] {newton : Newton α} {mask : Vector Bool 6}
    (p : Kkt α) (hm : maskFor newton.machine newton.projection 6 = .ok mask) (y : Vector α 6) :
    (newton.init p.system y).value = .ok (.initial (p.residual y)) :=
  Newton.value_init_ofMaps (by decide) hm p.residual jacobian y

/-- In exact arithmetic the Jacobian of the reference problem is singular everywhere. So by
elimination, with a pivot threshold that is left out or not negative and tolerances that fit, a
run never moves : it reports its start, as a success if it has converged there, as out of
budget if no step is allowed, and otherwise as singular, after exactly one step. -/
theorem elimination_never_moves [Decomposes 𝕜] (p : Kkt 𝕜) :
    (∀ y, (jacobian y : SquareMatrix 𝕜 6).toMatrix.det = 0) ∧
    ∀ (newton : Newton 𝕜) (mask : Vector Bool 6) (y₀ : Vector 𝕜 6),
      newton.linearMethod = .lu → newton.PivotsNonnegative →
      newton.checkTolerances = .ok () → maskFor newton.machine newton.projection 6 = .ok mask →
      ∃ solution, (newton.run p.system y₀).value = .ok solution ∧ solution.value = y₀ ∧
        solution.residualNorm = Vec.norm (p.residual y₀) ∧
        (solution.outcome, solution.steps) =
          if Vec.norm (p.residual y₀) < newton.atol + newton.rtol * Vec.norm (p.residual y₀) then
            (.success, 0)
          else if newton.maxSteps = 0 then (.maxIterations, 0)
          else (.singularJacobian, 1) := by
  refine ⟨det_jacobian, fun newton mask y₀ hlu hp ht hm => ?_⟩
  have h₀ := value_init_system p hm y₀
  have hrun := Newton.value_run_of_stuck p.isSquare_system h₀ ht hp.checkPivots fun d hd =>
    hd.unusable_of_det hlu hp fun A hA => by
      obtain rfl :=
        Except.ok.inj ((System.jacobianMatrix_ofMaps y₀ p.residual jacobian).symm.trans hA)
      exact det_jacobian y₀
  have hconverged : (newton.status (.initial (p.residual y₀))).converged =
      decide (Vec.norm (p.residual y₀) <
        newton.atol + newton.rtol * Vec.norm (p.residual y₀)) := rfl
  have hraised : (newton.status (.initial (p.residual y₀))).raised =
      (newton.status (.initial (p.residual y₀))).converged := by
    simp [Flags.raised, Newton.status, State.flags, State.initial]
  have houtcome : (newton.ending y₀ (.initial (p.residual y₀))).outcome = _ :=
    Newton.outcome_ending
  rw [hrun, hraised]
  rw [hconverged] at houtcome ⊢
  by_cases hc : Vec.norm (p.residual y₀) <
      newton.atol + newton.rtol * Vec.norm (p.residual y₀)
  · rw [if_pos (Or.inr (decide_eq_true hc)), if_pos hc]
    rw [if_pos (decide_eq_true hc)] at houtcome
    exact ⟨_, rfl, rfl, rfl, Prod.ext houtcome rfl⟩
  · rw [if_neg hc]
    rw [if_neg (by simpa using hc)] at houtcome
    by_cases hbudget : newton.maxSteps = 0
    · rw [if_pos (Or.inl hbudget), if_pos hbudget]
      refine ⟨_, rfl, rfl, rfl, Prod.ext (houtcome.trans ?_) rfl⟩
      simp [State.initial]
    · rw [if_neg (by simpa [hbudget] using hc), if_neg hbudget]
      exact ⟨_, rfl, rfl, rfl, rfl⟩

/-- From the guess of ones, with the default settings over the rational numbers, the run on the
standard problem ends at the guess after one step. -/
theorem standard_never_moves :
    ∃ solution, (Newton.rational.run (standard : Kkt ℚ).system initialGuess).value =
        .ok solution ∧ solution.value = initialGuess ∧ solution.outcome = .singularJacobian ∧
      solution.steps = 1 := by
  obtain ⟨solution, hrun, hvalue, -, hend⟩ :=
    (elimination_never_moves (standard : Kkt ℚ)).2 Newton.rational (Vector.replicate 6 true)
      initialGuess rfl (Or.inl rfl) rfl rfl
  have hfar : ¬Vec.norm ((standard : Kkt ℚ).residual initialGuess) <
      Newton.rational.atol +
        Newton.rational.rtol * Vec.norm ((standard : Kkt ℚ).residual initialGuess) := by
    decide +kernel
  rw [if_neg hfar, if_neg (by decide)] at hend
  exact ⟨solution, hrun, hvalue, congrArg Prod.fst hend, congrArg Prod.snd hend⟩

end Kkt

end Stationary
