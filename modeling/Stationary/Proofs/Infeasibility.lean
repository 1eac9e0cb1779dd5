import Mathlib
import Stationary.Proofs.RankDeficiency
import Stationary.Proofs.Undefined

/-!
# A problem without a solution

The reference problem asks for a point at which all constraints are active, so at which
`x₁ + x₂ = capacity`, `x₁ = 0` and `x₂ = 0`, and there is none unless the capacity is zero. How
far from a solution every point is follows from these three components alone : their squares
add up to a third of the squared capacity at least, since the capacity is a sum of three
numbers of these magnitudes (`Kkt.sumSquares_residual_ge`).

So with an absolute tolerance that is not above `capacity / √3` no run converges, whatever its
start, policy, budget and linear steps are. The arithmetic is the one with an undefined
number, in which the iterates stay defined (`Kkt.exists_numbers_of_walk`).
-/

set_option linter.unusedSectionVars false

namespace Stationary

open WithUndefined

namespace Kkt

variable {𝕜 : Type} [ExactArithmetic 𝕜] {p : Kkt 𝕜}

/-- A number is a sum of three others, so its square is at most three times the sum of theirs. -/
theorem sq_le_three_mul {R : Type} [Field R] [LinearOrder R] [IsStrictOrderedRing R]
    (x₁ x₂ c : R) : c ^ 2 ≤ 3 * ((x₁ + x₂ - c) ^ 2 + x₁ ^ 2 + x₂ ^ 2) := by
  nlinarith [sq_nonneg (x₁ - x₂), sq_nonneg (x₁ + (x₁ + x₂ - c)), sq_nonneg (x₂ + (x₁ + x₂ - c))]

theorem sum_three_le {R : Type} [Field R] [LinearOrder R] [IsStrictOrderedRing R]
    (a b x₁ x₂ r d : R) :
    r ^ 2 + x₁ ^ 2 + x₂ ^ 2 ≤ a ^ 2 + b ^ 2 + r ^ 2 + x₁ ^ 2 + x₂ ^ 2 + d ^ 2 := by
  nlinarith [sq_nonneg a, sq_nonneg b, sq_nonneg d]

/-- Everywhere the sum of the squares of the residual is at least a third of the squared
capacity. -/
theorem sumSquares_residual_ge (p : Kkt 𝕜) (y : Vector 𝕜 6) :
    p.capacity ^ 2 / 3 ≤ Vec.sumSquares (p.residual y) := by
  have hsum : Vec.sumSquares (p.residual y) =
      (p.cost₁ + y[2] - y[3] + (y[5] + y[5]) * y[0]) ^ 2 +
        (p.cost₂ + y[2] - y[4] + (y[5] + y[5]) * y[1]) ^ 2 +
        (y[0] + y[1] - p.capacity) ^ 2 + y[0] ^ 2 + y[1] ^ 2 +
        (y[0] * y[0] + y[1] * y[1] - p.radiusSq) ^ 2 := by
    unfold Vec.sumSquares
    simp only [Vec.dot_eq, dotProduct, Fin.sum_univ_succ]
    simp [residual, Vector.get_eq_getElem]
    ring
  rw [hsum, div_le_iff₀ three_pos, mul_comm]
  refine (sq_le_three_mul y[0] y[1] p.capacity).trans ?_
  exact mul_le_mul_of_nonneg_left (sum_three_le _ _ _ _ _ _) zero_le_three

/-- The problem with the same data, as numbers that might be undefined. -/
def numbers (p : Kkt 𝕜) : Kkt (WithUndefined 𝕜) where
  cost₁ := number p.cost₁
  cost₂ := number p.cost₂
  capacity := number p.capacity
  radiusSq := number p.radiusSq

theorem residual_numbers (p : Kkt 𝕜) (y : Vector 𝕜 6) :
    p.numbers.residual (Vec.numbers y) = Vec.numbers (p.residual y) := by
  simp only [residual, Vec.getElem_numbers]
  simp only [Vec.numbers, Vector.map_mk, List.map_toArray, List.map_cons, List.map_nil]
  rfl

theorem jacobian_numbers (y : Vector 𝕜 6) :
    jacobian (Vec.numbers y) = SquareMatrix.numbers (jacobian y) := by
  simp only [jacobian, Vec.getElem_numbers]
  simp only [SquareMatrix.numbers, Vec.numbers, Vector.map_mk, List.map_toArray, List.map_cons,
    List.map_nil]
  rfl

variable [Decomposes (WithUndefined 𝕜)] {newton : Newton (WithUndefined 𝕜)} {atol : 𝕜}
  {mask : Vector Bool 6} {y₀ : Vector 𝕜 6} {y : Vector (WithUndefined 𝕜) 6}
  {s : State (WithUndefined 𝕜) 6} {k : Nat}

/-- The iterates of a walk from numbers are numbers : a step that can be used has no undefined
entries, and one that cannot is not taken. -/
theorem exists_numbers_of_walk
    (h : newton.walk p.numbers.system (Vec.numbers y₀) k = .ok (y, s)) :
    ∃ z, y = Vec.numbers z := by
  induction k generalizing y s with
  | zero =>
    obtain ⟨rfl, -⟩ := Newton.walk_zero_eq_ok_iff.1 h
    exact ⟨y₀, rfl⟩
  | succ k ih =>
    obtain ⟨y', s', hbefore, hstep⟩ := Newton.walk_succ_eq_ok_iff.1 h
    obtain ⟨z, rfl⟩ := ih hbefore
    obtain ⟨mask, A, d, f, -, -, hd, rfl, -, -⟩ := Newton.value_step_eq_ok_iff.1 hstep
    cases hu : d.usable with
    | false => exact ⟨z, Newton.advance_of_unusable mask _ hu⟩
    | true =>
      obtain ⟨δ, hδ⟩ := Vec.exists_numbers (Newton.allFinite_of_usable hd hu)
      refine ⟨clamp mask (Vec.add z δ), ?_⟩
      rw [Newton.advance, if_pos hu, hδ, Vec.add_numbers, clamp_numbers]

/-- The residual of a state of a walk is that of numbers. -/
theorem exists_residual_of_walk
    (h : newton.walk p.numbers.system (Vec.numbers y₀) k = .ok (y, s)) :
    ∃ z, s.residual = Vec.numbers (p.residual z) ∧ s.norm = number (Vec.norm (p.residual z)) ∧
      s.initialNorm = number (Vec.norm (p.residual y₀)) := by
  obtain ⟨z, rfl⟩ := exists_numbers_of_walk h
  obtain ⟨-, hres, hnorm, f₀, hf₀, hinit⟩ := Newton.tracks_walk h
  have hvalue : ∀ z, p.numbers.system.residualVector (Vec.numbers z) =
      .ok (Vec.numbers (p.residual z)) := fun z => by
    rw [system, System.residualVector_ofMaps, residual_numbers]
  obtain rfl := Except.ok.inj ((hvalue y₀).symm.trans hf₀)
  have hresidual := Except.ok.inj ((hvalue z).symm.trans hres)
  exact ⟨z, hresidual.symm, by rw [hnorm, ← hresidual, Vec.norm_numbers],
    by rw [hinit, Vec.norm_numbers]⟩

variable [ExactRoots 𝕜]

/-- The norm of the residual is not below a tolerance whose square is at most a third of the
squared capacity. -/
theorem not_norm_residual_lt (hatol : 3 * atol ^ 2 ≤ p.capacity ^ 2) (y : Vector 𝕜 6) :
    ¬Vec.norm (p.residual y) < atol := by
  intro hlt
  have hsum := sumSquares_residual_ge p y
  have hroot : Vec.norm (p.residual y) = ExactArithmetic.root (Vec.sumSquares (p.residual y)) :=
    dif_neg (by decide)
  have hnonneg := ExactRoots.root_nonneg (Vec.sumSquares_nonneg (p.residual y))
  have hsquare := ExactRoots.root_mul_root (Vec.sumSquares_nonneg (p.residual y))
  rw [← hroot] at hnonneg hsquare
  nlinarith

/-- No state of a walk has converged. -/
theorem converged_of_walk (hrtol : newton.rtol = 0) (ha : newton.atol = number atol)
    (hatol : 3 * atol ^ 2 ≤ p.capacity ^ 2)
    (h : newton.walk p.numbers.system (Vec.numbers y₀) k = .ok (y, s)) :
    (newton.status s).converged = false := by
  obtain ⟨z, -, hnorm, hinit⟩ := exists_residual_of_walk h
  have hthreshold : newton.threshold s.initialNorm = number atol := by
    rw [Newton.threshold, hrtol, ha, hinit, ← number_zero, number_mul, number_add, zero_mul,
      add_zero]
  show Scalar.lt s.norm (newton.threshold s.initialNorm) = false
  rw [hthreshold, hnorm, number_lt]
  exact decide_eq_false (not_norm_residual_lt hatol z)

/-- No run converges. -/
theorem never_success (hrtol : newton.rtol = 0) (ha : newton.atol = number atol)
    (hatol : 3 * atol ^ 2 ≤ p.capacity ^ 2) {solution : Solution (WithUndefined 𝕜) 6}
    (hrun : (newton.run p.numbers.system (Vec.numbers y₀)).value = .ok solution) :
    solution.outcome ≠ .success := by
  obtain ⟨k, s, hvisit, hend, -⟩ := Newton.exists_visits_of_run hrun
  intro hsuccess
  rw [← hend] at hsuccess
  have hconverged := Newton.converged_of_outcome_ending hsuccess
  rw [converged_of_walk hrtol ha hatol hvisit.walk] at hconverged
  exact Bool.false_ne_true hconverged

/-- A state of a walk has no flag up unless its last step failed. -/
theorem raised_of_walk (hrtol : newton.rtol = 0) (ha : newton.atol = number atol)
    (hatol : 3 * atol ^ 2 ≤ p.capacity ^ 2)
    (h : newton.walk p.numbers.system (Vec.numbers y₀) k = .ok (y, s)) :
    (newton.status s).raised = s.stepFailed := by
  obtain ⟨z, hres, -, -⟩ := exists_residual_of_walk h
  have hfinite : (newton.status s).nonFinite = false := by
    show (!Vec.allFinite s.residual) = false
    rw [hres, Vec.allFinite_numbers]
    rfl
  have hsingular : (newton.status s).singular = s.stepFailed := rfl
  simp [Flags.raised, converged_of_walk hrtol ha hatol h, hfinite, hsingular]

/-- With finite steps of least squares a run uses up its budget, if the counter can reach it, and
goes on for ever otherwise. -/
theorem exhausts_of_leastSquares (hrtol : newton.rtol = 0) (ha : newton.atol = number atol)
    (hatol : 3 * atol ^ 2 ≤ p.capacity ^ 2)
    (hm : maskFor newton.machine newton.projection 6 = .ok mask)
    (ht : newton.checkTolerances = .ok ()) (hls : newton.linearMethod = .leastSquares)
    (hfinite : ∀ (A : SquareMatrix 𝕜 6) (b : Vector 𝕜 6),
      (LinearStep.leastSquares (SquareMatrix.numbers A) (Vec.numbers b)).usable = true) :
    (newton.machine.Counts newton.maxSteps →
      ∃ solution, (newton.run p.numbers.system (Vec.numbers y₀)).value = .ok solution ∧
        solution.outcome = .maxIterations ∧ solution.steps = newton.maxSteps) ∧
    (¬newton.machine.Counts newton.maxSteps →
      (newton.run p.numbers.system (Vec.numbers y₀)).value = .error .endless) := by
  have h₀ := value_init_system p.numbers hm (Vec.numbers y₀)
  have hp : newton.checkPivots = .ok () := by
    unfold Newton.checkPivots
    rw [hls]
  have hsq : p.numbers.system.IsSquare := System.isSquare_ofMaps _ _
  have husable : ∀ k y s, newton.walk p.numbers.system (Vec.numbers y₀) k = .ok (y, s) →
      s.stepFailed = false := by
    intro k y s h
    rw [← Bool.not_eq_true, Newton.stepFailed_walk h]
    rintro ⟨j, z, t, d, -, hbefore, ⟨A, hA, hd⟩, hu⟩
    obtain ⟨u, rfl⟩ := exists_numbers_of_walk hbefore
    obtain ⟨v, hv, -, -⟩ := exists_residual_of_walk hbefore
    rw [system, System.jacobianMatrix_ofMaps, jacobian_numbers] at hA
    obtain rfl := Except.ok.inj hA
    rcases Newton.linearStep_eq_ok_iff.1 hd with ⟨-, rfl⟩ | ⟨hlu, -⟩
    · rw [hv, Vec.neg_numbers, hfinite] at hu
      cases hu
    · rw [hls] at hlu
      cases hlu
  rcases Newton.run_stops h₀ ht with
    ⟨hall, hend⟩ | ⟨K, -, ⟨z, t, hwalk, hlast, hrun⟩ | ⟨e, he, -⟩⟩
  · refine ⟨fun hc => ?_, fun _ => hend⟩
    obtain ⟨solution, hrun⟩ := Newton.exists_solution hsq h₀ ht hp hc
    rw [hend] at hrun
    cases hrun
  · have hraised := raised_of_walk hrtol ha hatol hwalk
    rw [husable K z t hwalk] at hraised
    obtain ⟨rfl, hc⟩ := hlast.resolve_right (by rw [hraised]; exact Bool.false_ne_true)
    refine ⟨fun _ => ⟨_, hrun, ?_, ?_⟩, fun hnot => absurd hc hnot⟩
    · unfold Newton.ending
      rw [Flags.outcome?_eq_none_iff.2 hraised]
      rfl
    · exact (Newton.tracks_walk hwalk).steps.trans (Machine.counted_of_counts hc)
  · obtain ⟨z, t, hwalk⟩ := Newton.exists_walk hsq hp h₀ K
    rw [hwalk] at he
    cases he

/-- By elimination a run with a budget ends as singular after one step, whatever the pivot
threshold is. -/
theorem singular_of_lu (hrtol : newton.rtol = 0) (ha : newton.atol = number atol)
    (hatol : 3 * atol ^ 2 ≤ p.capacity ^ 2)
    (hm : maskFor newton.machine newton.projection 6 = .ok mask)
    (ht : newton.checkTolerances = .ok ()) (hlu : newton.linearMethod = .lu)
    (hp : newton.checkPivots = .ok ()) (hbudget : 1 ≤ newton.maxSteps) :
    ∃ solution, (newton.run p.numbers.system (Vec.numbers y₀)).value = .ok solution ∧
      solution.outcome = .singularJacobian ∧ solution.steps = 1 ∧
      solution.value = Vec.numbers y₀ := by
  have h₀ := value_init_system p.numbers hm (Vec.numbers y₀)
  have hsq : p.numbers.system.IsSquare := System.isSquare_ofMaps _ _
  have hraised := raised_of_walk hrtol ha hatol (Newton.walk_zero_eq_ok_iff.2 ⟨rfl, h₀⟩)
  have hstuck : ∀ d, newton.Solves p.numbers.system (Vec.numbers y₀)
      (.initial (p.numbers.residual (Vec.numbers y₀))) d → d.usable = false := by
    rintro d ⟨A, hA, hd⟩
    rw [system, System.jacobianMatrix_ofMaps, jacobian_numbers] at hA
    obtain rfl := Except.ok.inj hA
    rw [Bool.eq_false_iff]
    intro hu
    have hdelta := Newton.allFinite_of_usable hd hu
    rcases Newton.linearStep_eq_ok_iff.1 hd with ⟨hls, -⟩ | ⟨-, r, -, rfl⟩
    · rw [hlu] at hls
      cases hls
    · exact pivots_ne_zero_iff.1 (pivots_ne_zero_of_allFinite hdelta) (det_jacobian y₀)
  have hrun := Newton.value_run_of_stuck hsq h₀ ht hp hstuck
  rw [if_neg] at hrun
  · exact ⟨_, hrun, rfl, rfl, rfl⟩
  · rw [hraised]
    rintro (hzero | hfailed)
    · omega
    · cases hfailed

end Kkt

end Stationary
