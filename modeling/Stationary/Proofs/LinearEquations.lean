import Stationary.Proofs.RegularSteps

/-!
# Linear equations

On equations `A y = b` with the constant Jacobian `A` the first step is exact. If elimination with
the threshold of the configuration admits `A` (`Newton.Admits`), the linear step is the distance
from the iterate to the root `A⁻¹ b`, from wherever it is taken (`add_solve_eq_linearRoot`). A
policy that marks no negative component of the root leaves the root as it is, and its residual is
zero. So a run has converged at its start or after one step (`Newton.run_linearEquations`).

The arithmetic is exact, with a number that is undefined : a run divides by pivots, and it has to
be seen that none of them is zero.
-/

set_option linter.unusedSectionVars false

namespace Stationary

open Matrix WithUndefined

/-- The residual `A y - b`, row by row. -/
def linearResidual {α : Type} {n : Nat} [Scalar α] (A : SquareMatrix α n) (b y : Vector α n) :
    Vector α n :=
  Vector.zipWith (fun row c => Vec.dot row y - c) A b

/-- The equations `A y = b`, with the constant Jacobian `A`. -/
def System.linear {α : Type} {n : Nat} [Scalar α] (A : SquareMatrix α n) (b : Vector α n) :
    System α n :=
  .ofMaps (linearResidual A b) fun _ => A

variable {𝕜 : Type} {n : Nat} [ExactArithmetic 𝕜]

/-- The root `A⁻¹ b`. -/
noncomputable def linearRoot (A : SquareMatrix 𝕜 n) (b : Vector 𝕜 n) : Vector 𝕜 n :=
  Vector.ofFn (A.toMatrix⁻¹ *ᵥ b.get)

variable {A : SquareMatrix 𝕜 n} {b y : Vector 𝕜 n}

/-! ## The residual and the root -/

theorem get_linearResidual (A : SquareMatrix 𝕜 n) (b y : Vector 𝕜 n) :
    (linearResidual A b y).get = A.toMatrix *ᵥ y.get - b.get := by
  funext i
  rw [linearResidual, Vec.get_zipWith, Vec.dot_eq]
  rfl

theorem linearResidual_numbers (A : SquareMatrix 𝕜 n) (b y : Vector 𝕜 n) :
    linearResidual (SquareMatrix.numbers A) (Vec.numbers b) (Vec.numbers y) =
      Vec.numbers (linearResidual A b y) :=
  Vec.ext_get fun i => by
    rw [linearResidual, linearResidual, Vec.get_zipWith, Vec.get_numbers, Vec.get_numbers,
      Vec.get_zipWith, SquareMatrix.numbers, Vec.get_map, Vec.dot_numbers, number_sub]

theorem get_linearRoot (A : SquareMatrix 𝕜 n) (b : Vector 𝕜 n) :
    (linearRoot A b).get = A.toMatrix⁻¹ *ᵥ b.get :=
  funext (Vector.get_ofFn _)

theorem mulVec_linearRoot (hdet : A.toMatrix.det ≠ 0) (b : Vector 𝕜 n) :
    A.toMatrix *ᵥ (linearRoot A b).get = b.get := by
  rw [get_linearRoot, mulVec_mulVec, mul_nonsing_inv _ hdet.isUnit, one_mulVec]

theorem get_linearResidual_linearRoot (hdet : A.toMatrix.det ≠ 0) (b : Vector 𝕜 n) (i : Fin n) :
    (linearResidual A b (linearRoot A b)).get i = 0 := by
  rw [get_linearResidual, mulVec_linearRoot hdet, sub_self]
  rfl

/-- Equations with a regular matrix have no other root. -/
theorem eq_linearRoot (hdet : A.toMatrix.det ≠ 0) (h : IsSolution A b y) : y = linearRoot A b :=
  Vec.ext_get fun i => by
    rw [get_linearRoot, ← isSolution_iff_mulVec.1 h, mulVec_mulVec, nonsing_inv_mul _ hdet.isUnit,
      one_mulVec]

/-- From every iterate the linear step leads to the root. -/
theorem add_solve_eq_linearRoot (h : ∀ p ∈ (factor A).pivots, p ≠ 0) (b y : Vector 𝕜 n) :
    Vec.add y ((factor A).solve (Vec.neg (linearResidual A b y))) = linearRoot A b := by
  refine ((Newton.mulVec_sub_iff fun x => isSolution_iff_eq_solve h).1 ?_).symm
  rw [mulVec_sub, mulVec_linearRoot (pivots_ne_zero_iff.1 h), get_linearResidual, neg_sub]

/-- Clamping keeps a vector with no negative component among the marked ones. -/
theorem clamp_eq_self {mask : Vector Bool n} {v : Vector 𝕜 n}
    (h : ∀ i, mask.get i = true → 0 ≤ v.get i) : clamp mask v = v :=
  Vec.ext_get fun i => by
    rw [get_clamp]
    split
    · rename_i hi
      exact max_eq_left (h i hi)
    · rfl

section Norms

variable [ExactRoots 𝕜]

theorem Vec.norm_nonneg (v : Vector 𝕜 n) : 0 ≤ norm v := by
  unfold norm
  split
  · exact abs_nonneg _
  · exact ExactRoots.root_nonneg (sumSquares_nonneg v)

theorem Vec.norm_eq_zero {v : Vector 𝕜 n} (h : ∀ i, v.get i = 0) : norm v = 0 := by
  unfold norm
  split
  · rename_i hn
    subst hn
    exact abs_eq_zero.2 (h 0)
  · have hsquares : sumSquares v = 0 := by
      unfold sumSquares
      rw [dot_eq, dotProduct]
      exact Finset.sum_eq_zero fun i _ => by rw [h i, zero_mul]
    rw [hsquares]
    exact mul_self_eq_zero.1 (ExactRoots.root_mul_root le_rfl)

end Norms

/-! ## Runs -/

namespace Newton

open Journaled

variable {newton : Newton (WithUndefined 𝕜)} {rtol atol x x₀ : 𝕜} {mask : Vector Bool n}
  {s : State (WithUndefined 𝕜) n}

/-- Both tolerances are numbers that can be compared with. -/
structure HasTolerances (newton : Newton (WithUndefined 𝕜)) (rtol atol : 𝕜) : Prop where
  rtol_eq : newton.rtol = number rtol
  atol_eq : newton.atol = number atol
  fit : newton.checkTolerances = .ok ()

/-- A state has converged if its norm is below the threshold. -/
theorem HasTolerances.converged_eq (h : newton.HasTolerances rtol atol) (hnorm : s.norm = number x)
    (hinitial : s.initialNorm = number x₀) :
    (newton.status s).converged = decide (x < atol + rtol * x₀) := by
  show Scalar.lt s.norm (newton.atol + newton.rtol * s.initialNorm) = _
  rw [h.atol_eq, h.rtol_eq, hnorm, hinitial, number_mul, number_add, number_lt]

/-- The configuration eliminates with a pivot threshold, and no pivot of the matrix is zero, or at
or below the threshold relative to the largest one. -/
structure Admits (newton : Newton (WithUndefined 𝕜)) (A : SquareMatrix 𝕜 n) : Prop where
  method : newton.linearMethod = .lu
  pivots : ∀ p ∈ (factor A).pivots, p ≠ 0
  threshold : ∃ r, (newton.pivotRtol = .standard ∧ r = LinearStep.standardPivotRtol n ∨
      newton.pivotRtol = .relative r) ∧
    ∀ a, r = number a → ∀ p ∈ (factor A).pivots, a * (factor A).largestPivot < p

/-- A threshold that is not negative keeps zero pivots out by itself. -/
theorem Admits.of_nonneg (hlu : newton.linearMethod = .lu) {a : 𝕜} (ha : 0 ≤ a)
    (hr : newton.pivotRtol = .standard ∧ number a = LinearStep.standardPivotRtol n ∨
      newton.pivotRtol = .relative (number a))
    (h : ∀ p ∈ (factor A).pivots, a * (factor A).largestPivot < p) : newton.Admits A where
  method := hlu
  pivots p hp := ((mul_nonneg ha (factor A).largestPivot_nonneg).trans_lt (h p hp)).ne'
  threshold := ⟨number a, hr, fun _ ha' => number.inj ha' ▸ h⟩

/-- With the threshold zero every regular matrix is admitted. -/
theorem Admits.of_det (hlu : newton.linearMethod = .lu)
    (hr : newton.pivotRtol = .relative (number 0)) (hdet : A.toMatrix.det ≠ 0) :
    newton.Admits A :=
  .of_nonneg hlu le_rfl (Or.inr hr) fun p hp => by
    rw [zero_mul]
    exact ((factor A).pivots_nonneg p hp).lt_of_ne' (pivots_ne_zero_iff.2 hdet p hp)

theorem Admits.det_ne_zero (h : newton.Admits A) : A.toMatrix.det ≠ 0 :=
  pivots_ne_zero_iff.1 h.pivots

/-- Equations with an admitted matrix have a linear step that can be used. -/
theorem Admits.linearStep (h : newton.Admits A) (c : Vector 𝕜 n) :
    ∃ d, newton.linearStep (SquareMatrix.numbers A) (Vec.numbers c) = .ok d ∧
      d.usable = true ∧ d.delta = Vec.numbers ((factor A).solve c) := by
  obtain ⟨r, hr, hlarge⟩ := h.threshold
  exact ⟨LinearStep.exactLu A c r, linearStep_eq_ok_iff.2 (Or.inr ⟨h.method, r, hr, rfl⟩),
    LinearStep.usable_exactLu_iff.2 ⟨h.pivots, hlarge⟩, LinearStep.delta_exactLu h.pivots c r⟩

/-- A step from an iterate of numbers leads to the root, if no negative component of the root is
marked. -/
theorem Admits.value_step (h : newton.Admits A)
    (hmask : maskFor newton.machine newton.projection n = .ok mask)
    (hroot : ∀ i, mask.get i = true → 0 ≤ (linearRoot A b).get i)
    (hs : s.residual = Vec.numbers (linearResidual A b y)) :
    ∃ d, d.usable = true ∧
      (newton.step (.linear (SquareMatrix.numbers A) (Vec.numbers b)) (Vec.numbers y) s).value =
        .ok (Vec.numbers (linearRoot A b),
          s.after newton.machine d (Vec.numbers (linearResidual A b (linearRoot A b)))) := by
  obtain ⟨d, hd, hu, hdelta⟩ := h.linearStep (Vec.neg (linearResidual A b y))
  have hnext : advance mask (Vec.numbers y) d = Vec.numbers (linearRoot A b) := by
    unfold advance
    rw [if_pos hu, hdelta, Vec.add_numbers, add_solve_eq_linearRoot h.pivots, clamp_numbers,
      clamp_eq_self hroot]
  refine ⟨d, hu, value_step_eq_ok_iff.2 ⟨mask, SquareMatrix.numbers A, d, _, hmask,
    System.jacobianMatrix_ofMaps .., ?_, hnext.symm, ?_, rfl⟩⟩
  · rw [hs, Vec.neg_numbers]
    exact hd
  · rw [System.linear, System.residualVector_ofMaps, linearResidual_numbers]

/-- In exact arithmetic, with tolerances that fit, the absolute one positive, and a budget of at
least one step, a run on `A y = b` succeeds for every matrix that elimination admits with the pivot
threshold, which then is a usable one, from every start, if the policy marks no negative component
of the root. Where the residual at the start is below the threshold it ends there, and otherwise it
takes one step and ends at the root. -/
theorem run_linearEquations [ExactRoots 𝕜] (hn : n ≠ 0) (ht : newton.HasTolerances rtol atol)
    (hatol : 0 < atol) (hrtol : 0 ≤ rtol) (hsteps : 1 ≤ newton.maxSteps) (hA : newton.Admits A)
    (b y₀ : Vector 𝕜 n) (hmask : maskFor newton.machine newton.projection n = .ok mask)
    (hroot : ∀ i, mask.get i = true → 0 ≤ (linearRoot A b).get i) :
    ∃ solution, (newton.run (.linear (SquareMatrix.numbers A) (Vec.numbers b))
        (Vec.numbers y₀)).value = .ok solution ∧
      solution.outcome = .success ∧
      if Vec.norm (linearResidual A b y₀) < atol + rtol * Vec.norm (linearResidual A b y₀) then
        solution.steps = 0 ∧ solution.value = Vec.numbers y₀
      else solution.steps = 1 ∧ solution.value = Vec.numbers (linearRoot A b) := by
  have hinit : (newton.init (.linear (SquareMatrix.numbers A) (Vec.numbers b))
      (Vec.numbers y₀)).value = .ok (.initial (Vec.numbers (linearResidual A b y₀))) := by
    rw [← linearResidual_numbers]
    exact value_init_ofMaps hn hmask _ _ _
  have hstart := Visits.start hinit ht.fit
  have hnorm := Vec.norm_numbers (linearResidual A b y₀)
  have hconverged :
      (newton.status (.initial (Vec.numbers (linearResidual A b y₀)))).converged = _ :=
    ht.converged_eq hnorm hnorm
  split
  · rename_i hbelow
    have hrun := hstart.value_run_of_converged (hconverged.trans (decide_eq_true hbelow))
    rwa [Machine.counted_zero] at hrun
  · rename_i habove
    have hfinite : (newton.status (.initial (Vec.numbers (linearResidual A b y₀)))).nonFinite =
        false := congrArg (! ·) (Vec.allFinite_numbers (linearResidual A b y₀))
    have hraised : (newton.status (.initial (Vec.numbers (linearResidual A b y₀)))).raised =
        false := by
      unfold Flags.raised
      rw [hconverged, decide_eq_false habove, hfinite]
      rfl
    obtain ⟨d, -, hstep⟩ := hA.value_step hmask hroot
      (s := .initial (Vec.numbers (linearResidual A b y₀))) rfl
    have hzero : Vec.norm (Vec.numbers (linearResidual A b (linearRoot A b))) = number 0 := by
      rw [Vec.norm_numbers, Vec.norm_eq_zero (get_linearResidual_linearRoot hA.det_ne_zero b)]
    have hbelow : (0 : 𝕜) < atol + rtol * Vec.norm (linearResidual A b y₀) :=
      add_pos_of_pos_of_nonneg hatol (mul_nonneg hrtol (Vec.norm_nonneg _))
    have hbudget : newton.machine.counted 0 < newton.maxSteps := by
      rw [Machine.counted_zero]
      exact Int.ofNat_lt.2 hsteps
    have hrun := (hstart.step hbudget hraised hstep).value_run_of_converged
      ((ht.converged_eq hzero hnorm).trans (decide_eq_true hbelow))
    rwa [Nat.zero_add, Machine.counted_one] at hrun

/-- The configuration with the tolerance `10⁻⁶`, one step, a policy that marks the first of two
components, and the pivot threshold zero, over the real numbers. -/
noncomputable def singleStep : Newton (WithUndefined ℝ) where
  rtol := number 0
  atol := number (1 / 10 ^ 6)
  maxSteps := 1
  projection := .tuple [.int 1, .int 0]
  linearMethod := .lu
  pivotRtol := .relative (number 0)

/-- The equations `y₁ = -4` and `2 y₀ = 6`, whose first pivot is in the second row, from the
origin. The negative component of the root is not marked. -/
theorem run_linearEquations_exchanged :
    let A : SquareMatrix ℝ 2 := .ofMatrix !![0, 1; 2, 0]
    singleStep.Admits A ∧ maskFor singleStep.machine singleStep.projection 2 = .ok #v[true, false] ∧
      ∃ solution, (singleStep.run (.linear (SquareMatrix.numbers A) (Vec.numbers #v[-4, 6]))
          (Vec.numbers #v[0, 0])).value = .ok solution ∧
        solution.outcome = .success ∧ solution.steps = 1 ∧
        solution.value = Vec.numbers #v[3, -4] := by
  intro A
  have hA : A.toMatrix = !![0, 1; 2, 0] := SquareMatrix.toMatrix_ofMatrix _
  have hdet : A.toMatrix.det ≠ 0 := by
    rw [hA, det_fin_two_of]
    norm_num
  have hroot : linearRoot A #v[-4, 6] = #v[3, -4] := by
    refine (eq_linearRoot hdet (isSolution_iff_mulVec.2 ?_)).symm
    rw [hA]
    ext i
    fin_cases i <;> norm_num [mulVec, dotProduct, Vector.get]
  have hnorm : ¬Vec.norm (linearResidual A #v[-4, 6] #v[0, 0]) <
      1 / 10 ^ 6 + 0 * Vec.norm (linearResidual A #v[-4, 6] #v[0, 0]) := by
    have hsquares : Vec.sumSquares (linearResidual A #v[-4, 6] #v[0, 0]) = 52 := by
      unfold Vec.sumSquares
      rw [Vec.dot_eq, get_linearResidual, hA]
      norm_num [mulVec, dotProduct, Vector.get, Fin.sum_univ_two]
    have hroot : Vec.norm (linearResidual A #v[-4, 6] #v[0, 0]) = √52 := by
      rw [← hsquares]
      rfl
    rw [hroot, zero_mul, add_zero, not_lt]
    exact Real.le_sqrt_of_sq_le (by norm_num)
  have hadmits : singleStep.Admits A := .of_det rfl rfl hdet
  have hmask : maskFor singleStep.machine singleStep.projection 2 = .ok #v[true, false] := rfl
  have hmarked : ∀ i, (#v[true, false] : Vector Bool 2).get i = true →
      0 ≤ (linearRoot A #v[-4, 6]).get i := by
    intro i hi
    rw [hroot]
    fin_cases i
    · exact (by norm_num : (0 : ℝ) ≤ 3)
    · cases hi
  have htolerances : singleStep.HasTolerances 0 (1 / 10 ^ 6) := ⟨rfl, rfl, rfl⟩
  obtain ⟨solution, hrun, hsuccess, hend⟩ := run_linearEquations two_ne_zero htolerances
    (by norm_num) le_rfl le_rfl hadmits #v[-4, 6] #v[0, 0] hmask hmarked
  rw [if_neg hnorm, hroot] at hend
  exact ⟨hadmits, hmask, solution, hrun, hsuccess, hend.1, hend.2⟩

end Newton

end Stationary
