import Stationary.Proofs.ProjectedSteps
import Stationary.Proofs.SingularValues

/-!
# Runs by elimination and by least squares

Two configurations agree on a run (`Newton.Agree`) if they start alike, read the same flags, have
the same budget and take the same steps from the places that the first run visits and has to
leave. Then the second run visits the same places (`Newton.Agree.visits_iff`) and is the same
computation, its journal included (`Newton.Agree.run_eq`); in both the places visited before
justify the next step.

The way to solve for a step is only used in steps. In exact arithmetic both ways have the same
result where the matrix passes the pivot test and none of its singular values counts as zero
(`Newton.RegularAt`). So a run by elimination that only meets such matrices does not change if
the steps are solved for by least squares (`Newton.regular_runs_agree`).
-/

set_option linter.unusedSectionVars false

namespace Stationary

namespace Newton

open Journaled

section Agreement

variable {α : Type} {n : Nat} [Scalar α] [Decomposes α] {newton newton' : Newton α}
  {system : System α n} {y₀ y : Vector α n} {s : State α n} {k : Nat}

/-- The second configuration starts like the first one, reads the same flags, and takes the
same steps from the places that a run of the first one visits and has to leave. -/
structure Agree (newton newton' : Newton α) (system : System α n) (y₀ : Vector α n) : Prop where
  init : newton'.init system y₀ = newton.init system y₀
  checkTolerances : newton'.checkTolerances = newton.checkTolerances
  machine : newton'.machine = newton.machine
  maxSteps : newton'.maxSteps = newton.maxSteps
  status : ∀ s : State α n, newton'.status s = newton.status s
  step : ∀ {k y s}, Visits newton system y₀ k y s →
    newton.machine.counted k < newton.maxSteps → (newton.status s).raised = false →
    newton'.step system y s = newton.step system y s

namespace Agree

/-- The runs visit the same places. -/
theorem visits_iff (h : Agree newton newton' system y₀) :
    Visits newton' system y₀ k y s ↔ Visits newton system y₀ k y s := by
  constructor
  · intro hvisit
    induction hvisit with
    | start h₀ ht => exact .start (h.init ▸ h₀) (h.checkTolerances ▸ ht)
    | step _ hk hraised hstep ih =>
      rw [h.machine, h.maxSteps] at hk
      rw [h.status] at hraised
      rw [h.step ih hk hraised] at hstep
      exact .step ih hk hraised hstep
  · intro hvisit
    induction hvisit with
    | start h₀ ht => exact .start (h.init.symm ▸ h₀) (h.checkTolerances.symm ▸ ht)
    | step hbefore hk hraised hstep ih =>
      refine .step ih ?_ ?_ ?_
      · rw [h.machine, h.maxSteps]
        exact hk
      · rw [h.status]
        exact hraised
      · rw [h.step hbefore hk hraised]
        exact hstep

/-- From a place that is visited the rest of the runs is the same. -/
theorem iterate_eq (h : Agree newton newton' system y₀) (hvisit : Visits newton system y₀ k y s) :
    newton'.iterate system y s = newton.iterate system y s := by
  have hstop : ∀ s : State α n, newton'.stop? s = newton.stop? s := by
    intro s
    unfold stop?
    rw [h.status, h.maxSteps]
  refine repeatUntil_congr (P := fun y s => ∃ k, Visits newton system y₀ k y s)
    (fun _ s _ => hstop s) ?_ ?_ ⟨k, hvisit⟩
  · rintro y s ⟨k, hvisit⟩ hnone
    obtain ⟨hraised, hsteps⟩ := stop?_eq_none_iff.1 hnone
    exact h.step hvisit (hvisit.steps ▸ hsteps) hraised
  · rintro y s y' s' ⟨k, hvisit⟩ hnone hstep
    obtain ⟨hraised, hsteps⟩ := stop?_eq_none_iff.1 hnone
    exact ⟨k + 1, .step hvisit (hvisit.steps ▸ hsteps) hraised hstep⟩

/-- The runs are the same, with the same journal. -/
theorem run_eq (h : Agree newton newton' system y₀) :
    newton'.run system y₀ = newton.run system y₀ := by
  unfold run
  rw [h.init, h.checkTolerances]
  refine bind_congr_value fun s₀ h₀ => bind_congr_value fun _ ht => ?_
  rw [value_ofExcept, mapError_id] at ht
  exact h.iterate_eq (.start h₀ ht)

end Agree

/-- The configuration with another way to solve for steps. -/
def solvingBy (newton : Newton α) (method : LinearMethod) : Newton α :=
  { newton with linearMethod := method }

theorem step_eq_of_linearStep {method method' : LinearMethod}
    (h : ∀ A, system.jacobianMatrix y = .ok A →
      (newton.solvingBy method').linearStep A (Vec.neg s.residual) =
        (newton.solvingBy method).linearStep A (Vec.neg s.residual)) :
    (newton.solvingBy method').step system y s = (newton.solvingBy method).step system y s := by
  unfold step
  refine bind_congr fun mask => bind_congr_value fun A hA => ?_
  rw [System.value_jacobianAt] at hA
  rw [h A hA]
  rfl

end Agreement

section Fields

variable {𝕜 : Type} {n : Nat} [ExactArithmetic 𝕜] [Decomposes 𝕜] {newton : Newton 𝕜}
  {system : System 𝕜 n} {y₀ : Vector 𝕜 n} {A : SquareMatrix 𝕜 n}

/-- No pivot of the matrix is at or below the threshold of the configuration. -/
def PassesPivotTest (newton : Newton 𝕜) (A : SquareMatrix 𝕜 n) : Prop :=
  ∃ r, (newton.pivotRtol = .standard ∧ r = LinearStep.standardPivotRtol n ∨
    newton.pivotRtol = .relative r) ∧ (factor A).isSingular r = false

/-- The matrix passes the pivot test, and its decomposition is exact and has only singular
values that do not count as zero. -/
structure RegularAt (newton : Newton 𝕜) (A : SquareMatrix 𝕜 n) : Prop where
  pivots : newton.PassesPivotTest A
  exact : (Decomposes.svd A).IsExact A
  values : (Decomposes.svd A).IsRegular

/-- At a regular matrix the ways to solve for a step have the same result. -/
theorem RegularAt.linearStep_eq (h : newton.RegularAt A) (b : Vector 𝕜 n) :
    (newton.solvingBy .leastSquares).linearStep A b = (newton.solvingBy .lu).linearStep A b := by
  obtain ⟨r, hr, hpass⟩ := h.pivots
  have hlu : (newton.solvingBy .lu).linearStep A b = .ok (.lu A b r) :=
    linearStep_eq_ok_iff.2 (Or.inr ⟨rfl, r, hr, rfl⟩)
  rw [hlu, LinearStep.lu_eq_leastSquares hpass h.exact h.values]
  rfl

/-- The run by elimination only solves with regular matrices. -/
def RegularAlong (newton : Newton 𝕜) (system : System 𝕜 n) (y₀ : Vector 𝕜 n) : Prop :=
  ∀ k y s A, Visits (newton.solvingBy .lu) system y₀ k y s →
    newton.machine.counted k < newton.maxSteps →
    ((newton.solvingBy .lu).status s).raised = false → system.jacobianMatrix y = .ok A →
    newton.RegularAt A

theorem RegularAlong.agree (h : newton.RegularAlong system y₀) :
    Agree (newton.solvingBy .lu) (newton.solvingBy .leastSquares) system y₀ where
  init := rfl
  checkTolerances := rfl
  machine := rfl
  maxSteps := rfl
  status _ := rfl
  step hvisit hk hraised := step_eq_of_linearStep fun A hA =>
    (h _ _ _ A hvisit hk hraised hA).linearStep_eq _

/-- In exact arithmetic a run by elimination that only solves with matrices that pass the pivot
test, and that have no singular value that counts as zero, does not change if the steps are
solved for by least squares : the runs visit the same places, evaluate and note the same, and
have the same solution or fail alike. For values of the right shapes, an admissible start and
tolerances that fit they do have a solution, unless they go on for ever, for which the budget must
be out of reach of the counter. -/
theorem regular_runs_agree (newton : Newton 𝕜) (system : System 𝕜 n) (y₀ : Vector 𝕜 n)
    (h : newton.RegularAlong system y₀) :
    (∀ k y s, Visits (newton.solvingBy .leastSquares) system y₀ k y s ↔
      Visits (newton.solvingBy .lu) system y₀ k y s) ∧
    (newton.solvingBy .leastSquares).run system y₀ = (newton.solvingBy .lu).run system y₀ ∧
    (system.IsSquare → ∀ s₀, (newton.init system y₀).value = .ok s₀ →
      newton.checkTolerances = .ok () →
      (∃ solution, ((newton.solvingBy .leastSquares).run system y₀).value = .ok solution ∧
        ((newton.solvingBy .lu).run system y₀).value = .ok solution) ∨
      (newton.solvingBy .leastSquares).GoesOn system y₀ ∧
        (newton.solvingBy .lu).GoesOn system y₀ ∧
        ¬newton.machine.Counts newton.maxSteps) := by
  refine ⟨fun k y s => h.agree.visits_iff, h.agree.run_eq, fun hsq s₀ h₀ ht => ?_⟩
  have hinit : ((newton.solvingBy .leastSquares).init system y₀).value = .ok s₀ := h₀
  have hfit : (newton.solvingBy .leastSquares).checkTolerances = .ok () := ht
  rcases exists_solution_or_goesOn hsq hinit hfit rfl with ⟨solution, hrun⟩ | ⟨hon, hcount⟩
  · exact Or.inl ⟨solution, hrun, h.agree.run_eq ▸ hrun⟩
  · refine Or.inr ⟨hon, fun k => ?_, hcount⟩
    obtain ⟨y, s, hvisit, hgoesBy⟩ := hon k
    exact ⟨y, s, h.agree.visits_iff.1 hvisit, hgoesBy⟩

end Fields

/-- The configuration of `rational` without a clamp. -/
def unclampedRational : Newton ℚ :=
  { rational with projection := .text unclamped }

/-- The matrix of `exchangedEquations` is regular : its singular values are two and one. -/
theorem regularAt_exchanged :
    unclampedRational.RegularAt (#v[#v[0, 1], #v[2, 0]] : SquareMatrix ℚ 2) where
  pivots := ⟨_, Or.inl ⟨rfl, rfl⟩, by decide +kernel⟩
  exact :=
    { left := by decide +kernel
      right := by decide +kernel
      nonneg := by decide +kernel
      product := by decide +kernel }
  values := by
    show ∀ i : Fin 2, _ ∧ _
    decide +kernel

/-- From the origin both runs reach the root in one step. -/
theorem runs_exchangedEquations : unclampedRational.RegularAlong exchangedEquations #v[0, 0] ∧
    ∃ solution, ((unclampedRational.solvingBy .leastSquares).run exchangedEquations
        #v[0, 0]).value = .ok solution ∧
      ((unclampedRational.solvingBy .lu).run exchangedEquations #v[0, 0]).value = .ok solution ∧
      solution.outcome = .success ∧ solution.steps = 1 ∧ solution.value = #v[3, -4] := by
  have hregular : unclampedRational.RegularAlong exchangedEquations #v[0, 0] := by
    intro k y s A _ _ _ hA
    rw [exchangedEquations, System.jacobianMatrix_ofMaps] at hA
    obtain rfl := Except.ok.inj hA
    exact regularAt_exchanged
  have hinit : (unclampedRational.init exchangedEquations #v[0, 0]).value =
      .ok (.initial #v[4, -6]) := by
    refine value_init_eq_ok_iff.2 ⟨two_ne_zero, #v[4, -6], ?_, rfl, ⟨#v[false, false], rfl⟩, rfl⟩
    rw [exchangedEquations, System.residualVector_ofMaps]
    exact congrArg Except.ok (by decide +kernel)
  have heval : ((unclampedRational.solvingBy .lu).runFor exchangedEquations 2
      #v[0, 0]).map (·.toOption.map fun r => (r.outcome, r.steps, r.value)) =
        some (some (.success, 1, #v[3, -4])) := by decide +kernel
  obtain ⟨-, -, hsolution⟩ :=
    regular_runs_agree unclampedRational exchangedEquations #v[0, 0] hregular
  rcases hsolution (System.isSquare_ofMaps _ _) _ hinit rfl with
    ⟨solution, hls, hlu⟩ | ⟨-, -, hcount⟩
  · obtain ⟨solution', hlu', hend⟩ := exists_run_of_runFor heval
    obtain rfl : solution = solution' := Except.ok.inj (hlu.symm.trans hlu')
    obtain ⟨houtcome, hrest⟩ := Prod.mk.inj hend
    obtain ⟨hsteps, hvalue⟩ := Prod.mk.inj hrest
    exact ⟨hregular, solution, hls, hlu, houtcome, hsteps, hvalue⟩
  · exact absurd (by decide) hcount

end Newton

end Stationary
