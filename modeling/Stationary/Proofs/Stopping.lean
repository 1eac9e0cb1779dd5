import Mathlib.Order.Bounds.Defs
import Mathlib.Tactic.ByContra
import Mathlib.Tactic.Choose
import Stationary.Configuration
import Stationary.Flushed
import Stationary.Proofs.Loops

/-!
# Where a run stops

A run looks at the flags and at the counter before every step. So it is the walk from the
start, cut at the first state with a flag up or with a counter that has reached the budget :
the run goes by all places before (`Newton.GoesBy`). `Newton.iterate_stops` says this of the
loop, at any place of a walk, and for walks that break off as well : then the loop fails as
the walk does. A walk that goes by for ever makes a run without an end.

A counter that can reach the budget does so after as many steps
(`Newton.eq_maxSteps_of_goesBy`), and then every run has an end. A counter that wraps around
before never does.

`Newton.exists_first_stop` is the case of a system with values of the right shapes. Its walk
goes on for ever, unless the pivot threshold cannot be used, and then it breaks off at
once (`Newton.value_run_of_unusable`). Which of the accepted configurations have usable
tolerances and a usable threshold is said by `Solver.TolerancesFit` and
`Solver.PivotsUsable`.
-/

set_option linter.unusedSectionVars false

namespace Stationary

namespace Newton

variable {α : Type} {n : Nat} [Scalar α] {newton : Newton α} {system : System α n}
  {y y₀ : Vector α n} {s s₀ : State α n} {budget k : Nat}

open Journaled

theorem outcome_ending : (newton.ending y s).outcome =
    if (newton.status s).converged then .success
    else if s.stepFailed then .singularJacobian
    else if Vec.allFinite s.residual then .maxIterations
    else .nonFinite := by
  have hf : (newton.status s).singular = s.stepFailed := rfl
  have hn : (newton.status s).nonFinite = !Vec.allFinite s.residual := rfl
  unfold ending Flags.outcome?
  rw [hf, hn]
  cases (newton.status s).converged <;> cases s.stepFailed <;> cases Vec.allFinite s.residual <;>
    rfl

/-- Only a state with the flag is reported as a success. -/
theorem converged_of_outcome_ending (h : (newton.ending y s).outcome = .success) :
    (newton.status s).converged = true := by
  rw [outcome_ending] at h
  split at h
  · assumption
  · split at h
    · cases h
    · split at h <;> cases h

/-- Only a state after a step that could not be used is reported as singular. -/
theorem stepFailed_of_outcome_ending (h : (newton.ending y s).outcome = .singularJacobian) :
    s.stepFailed = true := by
  rw [outcome_ending] at h
  split at h
  · cases h
  · split at h
    · assumption
    · split at h <;> cases h

/-- Only a state without flags is reported as out of budget. -/
theorem raised_of_outcome_ending (h : (newton.ending y s).outcome = .maxIterations) :
    (newton.status s).raised = false := by
  unfold ending Flags.outcome? at h
  unfold Flags.raised
  revert h
  cases (newton.status s).converged <;> cases (newton.status s).singular <;>
    cases (newton.status s).nonFinite <;> simp

/-! ## The loop -/

variable [Decomposes α]

/-- A run that comes to place `j` of the walk from `y₀` takes a step there : no flag is up, and
the counter is below the budget. -/
def GoesBy (newton : Newton α) (system : System α n) (y₀ : Vector α n) (j : Nat) : Prop :=
  ∃ z t, newton.walk system y₀ j = .ok (z, t) ∧ (newton.status t).raised = false ∧
    newton.machine.counted j < newton.maxSteps

/-- With so many heads the loop from place `k` of a walk goes by all places, or it comes to a
place where it ends or to one where the walk breaks off. -/
theorem iterateFor_stops (fuel : Nat) (h : newton.walk system y₀ k = .ok (y, s)) :
    (newton.iterateFor system fuel y s = none ∧
      ∀ j, k ≤ j → j < k + fuel → newton.GoesBy system y₀ j) ∨
    ∃ K, k ≤ K ∧ (∀ j, k ≤ j → j < K → newton.GoesBy system y₀ j) ∧
      ((∃ z t, newton.walk system y₀ K = .ok (z, t) ∧
          (newton.maxSteps ≤ newton.machine.counted K ∨ (newton.status t).raised = true) ∧
          newton.iterateFor system fuel y s = some (.ok (newton.ending z t))) ∨
        ∃ e, newton.walk system y₀ K = .error e ∧
          newton.iterateFor system fuel y s = some (.error e)) := by
  induction fuel generalizing k y s with
  | zero => exact Or.inl ⟨rfl, fun j hj hj' => absurd hj (by omega)⟩
  | succ fuel ih =>
    have hsteps := (tracks_walk h).steps
    rcases newton.last_or_step s with hlast | ⟨hraised, hbudget⟩
    · refine Or.inr ⟨k, Nat.le_refl k, fun j hj hj' => absurd hj (by omega),
        Or.inl ⟨y, s, h, ?_, ?_⟩⟩
      · rwa [← hsteps]
      · exact iterateFor_of_last hlast
    · have hby : newton.GoesBy system y₀ k := ⟨y, s, h, hraised, by rwa [← hsteps]⟩
      rw [iterateFor_of_step hraised hbudget, ← walk_succ_of_ok h]
      cases hstep : newton.walk system y₀ (k + 1) with
      | error e =>
        refine Or.inr ⟨k + 1, by omega, fun j hj hj' => ?_, Or.inr ⟨e, hstep, rfl⟩⟩
        obtain rfl : j = k := by omega
        exact hby
      | ok p =>
        have hhere : ∀ {j}, k ≤ j → (k + 1 ≤ j → newton.GoesBy system y₀ j) →
            newton.GoesBy system y₀ j := by
          intro j hj hlater
          rcases Nat.eq_or_lt_of_le hj with rfl | hj
          · exact hby
          · exact hlater hj
        rcases ih hstep with ⟨hnone, hall⟩ | ⟨K, hK, hbefore, hat⟩
        · exact Or.inl ⟨hnone, fun j hj hj' => hhere hj fun hj => hall j hj (by omega)⟩
        · exact Or.inr ⟨K, by omega, fun j hj hj' => hhere hj fun hj => hbefore j hj hj', hat⟩

/-- The loop from place `k` of a walk goes by for ever, and has no end, or it comes to a place
`K`. There the run ends, which is reported, or the walk breaks off, and the loop fails with the
same cause. -/
theorem iterate_stops (h : newton.walk system y₀ k = .ok (y, s)) :
    ((∀ j, k ≤ j → newton.GoesBy system y₀ j) ∧
      (newton.iterate system y s).value = .error .endless) ∨
    ∃ K, k ≤ K ∧ (∀ j, k ≤ j → j < K → newton.GoesBy system y₀ j) ∧
      ((∃ z t, newton.walk system y₀ K = .ok (z, t) ∧
          (newton.maxSteps ≤ newton.machine.counted K ∨ (newton.status t).raised = true) ∧
          (newton.iterate system y s).value = .ok (newton.ending z t)) ∨
        ∃ e, newton.walk system y₀ K = .error e ∧
          (newton.iterate system y s).value = .error e) := by
  by_cases hend : ∃ fuel, newton.iterateFor system fuel y s ≠ none
  · obtain ⟨fuel, hfuel⟩ := hend
    rcases iterateFor_stops fuel h with ⟨hnone, -⟩ | ⟨K, hK, hbefore, hat⟩
    · exact absurd hnone hfuel
    · refine Or.inr ⟨K, hK, hbefore, ?_⟩
      rcases hat with ⟨z, t, hz, hlast, hit⟩ | ⟨e, he, hit⟩
      · exact Or.inl ⟨z, t, hz, hlast, value_iterate_of_iterateFor hit⟩
      · exact Or.inr ⟨e, he, value_iterate_of_iterateFor hit⟩
  · have hnone : ∀ fuel, newton.iterateFor system fuel y s = none := fun fuel =>
      by_contra fun hfuel => hend ⟨fuel, hfuel⟩
    refine Or.inl ⟨fun j hj => ?_, value_iterate_of_endless hnone⟩
    rcases iterateFor_stops (j - k + 1) h with ⟨-, hall⟩ | ⟨K, hK, hbefore, hat⟩
    · exact hall j hj (by omega)
    · rcases hat with ⟨z, t, -, -, hit⟩ | ⟨e, -, hit⟩
      · rw [hnone] at hit
        cases hit
      · rw [hnone] at hit
        cases hit

/-! ## Places that a run goes by -/

/-- A counter that can reach the budget has not gone by it. -/
theorem le_maxSteps_of_goesBy (hc : newton.machine.Counts newton.maxSteps)
    (h : ∀ j, j < k → newton.GoesBy system y₀ j) : k ≤ newton.maxSteps := by
  by_contra hlt
  obtain ⟨-, -, -, -, hbudget⟩ := h newton.maxSteps (Nat.lt_of_not_le hlt)
  rw [Machine.counted_of_counts hc] at hbudget
  exact Int.lt_irrefl _ hbudget

/-- A counter that has reached the budget for the first time has done so after as many steps. -/
theorem eq_maxSteps_of_goesBy (h : ∀ j, j < k → newton.GoesBy system y₀ j)
    (hk : newton.maxSteps ≤ newton.machine.counted k) : k = newton.maxSteps := by
  have hc : newton.machine.Counts newton.maxSteps := Int.le_trans hk (Machine.counted_le k)
  have hle := le_maxSteps_of_goesBy hc h
  rw [Machine.counted_of_counts (hc.mono hle)] at hk
  omega

/-! ## Runs -/

variable (newton system) in
instance recording_run (y : Vector α n) : Recording (newton.run system y) := by
  unfold run
  infer_instance

/-- A run is its start, a look at the tolerances, and the loop. -/
theorem value_run (h₀ : (newton.init system y₀).value = .ok s₀) : (newton.run system y₀).value =
    newton.checkTolerances.bind fun _ => (newton.iterate system y₀ s₀).value := by
  unfold run
  rw [value_bind, h₀]
  simp only [Except.bind, value_bind, value_ofExcept, mapError_id]

/-- The result of a run, if it has one at one of the first `fuel` heads. -/
def runFor (newton : Newton α) (system : System α n) (fuel : Nat) (y₀ : Vector α n) :
    Option (Except Failure (Solution α n)) :=
  match (newton.init system y₀).value with
  | .error e => some (.error e)
  | .ok s =>
    match newton.checkTolerances with
    | .error e => some (.error e)
    | .ok _ => newton.iterateFor system fuel y₀ s

theorem value_run_of_runFor {fuel : Nat} {r : Except Failure (Solution α n)}
    (h : newton.runFor system fuel y₀ = some r) : (newton.run system y₀).value = r := by
  unfold runFor at h
  cases h₀ : (newton.init system y₀).value with
  | error e =>
    rw [h₀] at h
    unfold run
    rw [value_bind, h₀]
    exact Option.some.inj h
  | ok s =>
    rw [h₀] at h
    rw [value_run h₀]
    cases ht : newton.checkTolerances with
    | error e =>
      rw [ht] at h
      exact Option.some.inj h
    | ok _ =>
      rw [ht] at h
      exact value_iterate_of_iterateFor h

/-- What some heads say of a solution is true of the solution of the run. -/
theorem exists_run_of_runFor {β : Type} {f : Solution α n → β} {b : β} {fuel : Nat}
    (h : (newton.runFor system fuel y₀).map (·.toOption.map f) = some (some b)) :
    ∃ solution, (newton.run system y₀).value = .ok solution ∧ f solution = b := by
  obtain ⟨r, hr, hb⟩ := Option.map_eq_some_iff.1 h
  cases r with
  | error e => cases hb
  | ok solution => exact ⟨solution, value_run_of_runFor hr, Option.some.inj hb⟩

/-- A run ends at its start if a flag is up there. -/
theorem value_run_of_raised (h₀ : (newton.init system y₀).value = .ok s₀)
    (ht : newton.checkTolerances = .ok ()) (h : (newton.status s₀).raised = true) :
    (newton.run system y₀).value = .ok (newton.ending y₀ s₀) := by
  rw [value_run h₀, ht]
  exact value_iterate_of_last (Or.inr h)

/-- A run from an admissible start, with tolerances that fit, goes by for ever, and has no end,
or it comes to a place `K`. It reports the state there, which has a flag up or has used up the
budget, or it fails where the walk breaks off. -/
theorem run_stops (h₀ : (newton.init system y₀).value = .ok s₀)
    (ht : newton.checkTolerances = .ok ()) :
    ((∀ j, newton.GoesBy system y₀ j) ∧ (newton.run system y₀).value = .error .endless) ∨
    ∃ K, (∀ j, j < K → newton.GoesBy system y₀ j) ∧
      ((∃ z t, newton.walk system y₀ K = .ok (z, t) ∧
          (K = newton.maxSteps ∧ newton.machine.Counts K ∨ (newton.status t).raised = true) ∧
          (newton.run system y₀).value = .ok (newton.ending z t)) ∨
        ∃ e, newton.walk system y₀ K = .error e ∧ (newton.run system y₀).value = .error e) := by
  have hrun : (newton.run system y₀).value = (newton.iterate system y₀ s₀).value := by
    rw [value_run h₀, ht]
    rfl
  rw [hrun]
  rcases iterate_stops (walk_zero_eq_ok_iff.2 ⟨rfl, h₀⟩) with
    ⟨hall, hend⟩ | ⟨K, -, hbefore, hat⟩
  · exact Or.inl ⟨fun j => hall j (Nat.zero_le j), hend⟩
  · have hbefore : ∀ j, j < K → newton.GoesBy system y₀ j := fun j => hbefore j (Nat.zero_le j)
    refine Or.inr ⟨K, hbefore, ?_⟩
    rcases hat with ⟨z, t, hz, hlast, hend⟩ | herror
    · refine Or.inl ⟨z, t, hz, hlast.imp_left fun hK => ?_, hend⟩
      have heq := eq_maxSteps_of_goesBy hbefore hK
      refine ⟨heq, ?_⟩
      rw [heq]
      exact Int.le_trans hK (Machine.counted_le K)
    · exact Or.inr herror

/-- A run whose counter can reach the budget does not go by for ever. -/
theorem run_stops_of_counts (hc : newton.machine.Counts newton.maxSteps)
    (h₀ : (newton.init system y₀).value = .ok s₀) (ht : newton.checkTolerances = .ok ()) :
    ∃ K, K ≤ newton.maxSteps ∧ (∀ j, j < K → newton.GoesBy system y₀ j) ∧
      ((∃ z t, newton.walk system y₀ K = .ok (z, t) ∧
          (K = newton.maxSteps ∨ (newton.status t).raised = true) ∧
          (newton.run system y₀).value = .ok (newton.ending z t)) ∨
        ∃ e, newton.walk system y₀ K = .error e ∧ (newton.run system y₀).value = .error e) := by
  rcases run_stops h₀ ht with ⟨hall, -⟩ | ⟨K, hbefore, hat⟩
  · have := le_maxSteps_of_goesBy hc fun j (_ : j < newton.maxSteps + 1) => hall j
    omega
  · refine ⟨K, le_maxSteps_of_goesBy hc hbefore, hbefore, hat.imp_left ?_⟩
    rintro ⟨z, t, hz, hlast, hrun⟩
    exact ⟨z, t, hz, hlast.imp_left And.left, hrun⟩

/-! ## Systems with values of the right shapes -/

/-- On a system with values of the right shapes a run has a solution, if tolerances and pivot
threshold can be used and the counter can reach the budget. -/
theorem exists_solution (hsq : system.IsSquare) (h₀ : (newton.init system y₀).value = .ok s₀)
    (ht : newton.checkTolerances = .ok ()) (hp : newton.checkPivots = .ok ())
    (hc : newton.machine.Counts newton.maxSteps) :
    ∃ solution, (newton.run system y₀).value = .ok solution := by
  obtain ⟨K, -, -, ⟨z, t, -, -, hrun⟩ | ⟨e, he, -⟩⟩ := run_stops_of_counts hc h₀ ht
  · exact ⟨_, hrun⟩
  · obtain ⟨y, s, hwalk⟩ := exists_walk hsq hp h₀ K
    rw [hwalk] at he
    cases he

/-- At the start the counter is at zero. -/
theorem steps_of_init (h₀ : (newton.init system y₀).value = .ok s₀) : s₀.steps = 0 :=
  (Tracks.start h₀).steps.trans Machine.counted_zero

/-- Without a usable pivot threshold a run only looks at its start. -/
theorem value_run_of_unusable {e : Failure} (hsq : system.IsSquare)
    (h₀ : (newton.init system y₀).value = .ok s₀) (ht : newton.checkTolerances = .ok ())
    (hp : newton.checkPivots = .error e) : (newton.run system y₀).value =
      if newton.maxSteps = 0 ∨ (newton.status s₀).raised = true then .ok (newton.ending y₀ s₀)
      else .error e := by
  obtain ⟨-, -, -, -, ⟨mask, hm⟩, -⟩ := value_init_eq_ok_iff.1 h₀
  have hsteps := steps_of_init h₀
  rw [value_run h₀, ht]
  simp only [Except.bind]
  split
  · rename_i h
    exact value_iterate_of_last (h.imp_left fun h => by omega)
  · rename_i h
    rw [not_or, Bool.not_eq_true] at h
    rw [value_iterate_of_step h.2 (by omega), value_step_of_unusable hsq hp hm]
    rfl

/-- On a system with values of the right shapes, from an admissible start, the steps go on for
ever. A run stops at the first place that is its budget, if the counter can reach it, or has a
flag up, and has no end if there is no such place. -/
theorem exists_first_stop (hsq : system.IsSquare)
    (h₀ : (newton.init system y₀).value = .ok s₀) (ht : newton.checkTolerances = .ok ())
    (hp : newton.checkPivots = .ok ()) :
    ∃ (y : Nat → Vector α n) (s : Nat → State α n),
      y 0 = y₀ ∧ s 0 = s₀ ∧
      (∀ k, (newton.step system (y k) (s k)).value = .ok (y (k + 1), s (k + 1))) ∧
      (∀ k, (s k).steps = newton.machine.counted k) ∧
      ((∃ K, IsLeast {k | k = newton.maxSteps ∧ newton.machine.Counts newton.maxSteps ∨
            (newton.status (s k)).raised = true} K ∧
          (newton.run system y₀).value = .ok (newton.ending (y K) (s K))) ∨
        (∀ k, (newton.status (s k)).raised = false) ∧
          ¬newton.machine.Counts newton.maxSteps ∧
          (newton.run system y₀).value = .error .endless) := by
  choose y s hwalk using exists_walk hsq hp h₀
  obtain ⟨hy, hs⟩ := walk_zero_eq_ok_iff.1 (hwalk 0)
  have hstep : ∀ k, (newton.step system (y k) (s k)).value = .ok (y (k + 1), s (k + 1)) :=
    fun k => by rw [← walk_succ_of_ok (hwalk k), hwalk (k + 1)]
  have hby : ∀ {k}, newton.GoesBy system y₀ k → (newton.status (s k)).raised = false ∧
      newton.machine.counted k < newton.maxSteps := by
    rintro k ⟨z, t, hz, hraised, hbudget⟩
    obtain ⟨rfl, rfl⟩ := Prod.mk.inj (Except.ok.inj ((hwalk k).symm.trans hz))
    exact ⟨hraised, hbudget⟩
  refine ⟨y, s, hy, Except.ok.inj (hs.symm.trans h₀), hstep,
    fun k => (tracks_walk (hwalk k)).steps, ?_⟩
  rcases run_stops h₀ ht with ⟨hall, hrun⟩ | ⟨K, hbefore, ⟨z, t, hz, hlast, hrun⟩ | ⟨e, he, -⟩⟩
  · refine Or.inr ⟨fun k => (hby (hall k)).1, fun hc => ?_, hrun⟩
    have := le_maxSteps_of_goesBy hc fun j (_ : j < newton.maxSteps + 1) => hall j
    omega
  · obtain ⟨rfl, rfl⟩ := Prod.mk.inj (Except.ok.inj ((hwalk K).symm.trans hz))
    refine Or.inl ⟨K, ⟨hlast.imp_left ?_, fun j hj => ?_⟩, hrun⟩
    · rintro ⟨rfl, hc⟩
      exact ⟨rfl, hc⟩
    · by_contra hlt
      obtain ⟨hraised, hbudget⟩ := hby (hbefore j (Nat.lt_of_not_le hlt))
      rcases hj with ⟨rfl, hc⟩ | hj
      · rw [Machine.counted_of_counts hc] at hbudget
        exact Int.lt_irrefl _ hbudget
      · rw [hraised] at hj
        exact Bool.false_ne_true hj
  · rw [hwalk K] at he
    cases he

end Newton

/-! ## Accepted configurations -/

section Accepted

variable {α : Type} [Elementary α] {solver : Solver}

/-- Both tolerances can be computed with. -/
def Solver.TolerancesFit (solver : Solver) : Prop :=
  solver.rtol.checkFit solver.machine.integers = .ok () ∧
    solver.atol.checkFit solver.machine.integers = .ok ()

/-- Elimination is not used, or has a threshold that is left out or a float. -/
def Solver.PivotsUsable (solver : Solver) : Prop :=
  solver.linearMethod = .leastSquares ∨ solver.pivotRtol = .nothing ∨
    ∃ r, solver.pivotRtol = .float r

theorem Solver.checkTolerances_newton (h : solver.TolerancesFit) :
    (solver.newton α).checkTolerances = .ok () := by
  unfold Solver.newton
  simp only [h.1, h.2]
  rfl

theorem Setting.checkFit_cases (format : WholeFormat) (given : Setting) :
    given.checkFit format = .ok () ∨ given.checkFit format = .error .toleranceTooLarge ∨
      given.checkFit format = .error .toleranceNotNumeric := by
  unfold checkFit
  split
  · exact Or.inr (Or.inr rfl)
  · exact Or.inl rfl
  · split
    · exact Or.inl rfl
    · exact Or.inr (Or.inl rfl)

/-- Tolerances that cannot be computed with are integers that are too large, or arrays of values
that are no numbers. -/
theorem Solver.checkTolerances_newton_of_not (h : ¬solver.TolerancesFit) :
    (solver.newton α).checkTolerances = .error .toleranceTooLarge ∨
      (solver.newton α).checkTolerances = .error .toleranceNotNumeric := by
  unfold Solver.TolerancesFit at h
  unfold Solver.newton
  rcases Setting.checkFit_cases solver.machine.integers solver.rtol with hr | hr | hr
  · rcases Setting.checkFit_cases solver.machine.integers solver.atol with ha | ha | ha
    · exact absurd ⟨hr, ha⟩ h
    · exact Or.inl (by simp only [hr, ha]; rfl)
    · exact Or.inr (by simp only [hr, ha]; rfl)
  · exact Or.inl (by simp only [hr]; rfl)
  · exact Or.inr (by simp only [hr]; rfl)

theorem Solver.checkPivots_newton (h : solver.PivotsUsable) :
    (solver.newton α).checkPivots = .ok () := by
  unfold Newton.checkPivots Solver.newton PivotThreshold.ofSetting
  rcases h with h | h | ⟨r, h⟩
  · rw [h]
  · rw [h]
    cases solver.linearMethod <;> rfl
  · rw [h]
    cases solver.linearMethod <;> rfl

theorem Solver.checkPivots_newton_of_not (h : ¬solver.PivotsUsable) :
    (solver.newton α).checkPivots = .error .pivotThreshold := by
  unfold Solver.PivotsUsable at h
  unfold Newton.checkPivots Solver.newton PivotThreshold.ofSetting
  cases hm : solver.linearMethod with
  | leastSquares => exact absurd (Or.inl hm) h
  | lu =>
    cases hp : solver.pivotRtol with
    | nothing => exact absurd (Or.inr (Or.inl hp)) h
    | float r => exact absurd (Or.inr (Or.inr ⟨r, hp⟩)) h
    | _ => rfl

/-- The solver of the settings that are not given. -/
def Solver.standard : Solver where
  rtol := .float 0.0
  atol := .float 1e-6
  maxSteps := 100
  projection := .text nonnegative
  linearMethod := .lu
  pivotRtol := .nothing
  machine := {}

theorem Solver.ofSettings_standard : Solver.ofSettings {} = .ok Solver.standard :=
  rfl

theorem Solver.tolerancesFit_standard : Solver.standard.TolerancesFit :=
  ⟨rfl, rfl⟩

theorem Solver.pivotsUsable_standard : Solver.standard.PivotsUsable :=
  Or.inr (Or.inl rfl)

theorem Solver.counts_standard : Solver.standard.machine.Counts Solver.standard.maxSteps := by
  decide

end Accepted

/-! ## Equations in one unknown -/

/-- The equation `y - 1 = 0`. -/
def unitEquation : System Binary64 1 :=
  .ofMaps (fun y => #v[y[0] - 1]) fun _ => #v[#v[1]]

theorem isSquare_unitEquation : unitEquation.IsSquare :=
  System.isSquare_ofMaps _ _

/-- The equation `y - 1 = 0` in binary32. -/
def narrowUnitEquation : System Binary32 1 :=
  .ofMaps (fun y => #v[y[0] - 1]) fun _ => #v[#v[1]]

namespace Newton

/-- The equation `y - 1 = 0`, with a Jacobian that is zero everywhere. -/
def flatEquation : System Binary64 1 :=
  .ofMaps (fun y => #v[y[0] - 1]) fun _ => #v[#v[0]]

/-- The equation `10⁻³⁰⁰ y - 2 · 10⁸ = 0`, whose root is too large for the format. -/
def distantRoot : System Binary64 1 :=
  .ofMaps (fun y => #v[⟨1e-300⟩ * y[0] - ⟨2e8⟩]) fun _ => #v[#v[⟨1e-300⟩]]

/-- A system like `y - 1 = 0`, but with these values at three and one only, and with this Jacobian
at three only. -/
def patchedEquation : System Binary64 1 :=
  .ofMaps (fun y => if y[0] = ⟨3⟩ ∨ y[0] = 1 then #v[y[0] - 1] else #v[0])
    fun y => if y[0] = ⟨3⟩ then #v[#v[1]] else #v[#v[0]]

/-- The equation `y² - 4 = 0`. -/
def squareEquation : System Binary64 1 :=
  .ofMaps (fun y => #v[y[0] * y[0] - ⟨4⟩]) fun y => #v[#v[y[0] + y[0]]]

/-- The equation `1 = 0`, with a Jacobian that is one everywhere. -/
def rootlessEquation : System Binary32 1 :=
  .ofMaps (fun _ => #v[1]) fun _ => #v[#v[1]]

theorem init_unitEquation {newton : Newton Binary64} {x r : Binary64} {mask : Vector Bool 1}
    (hm : maskFor newton.machine newton.projection 1 = .ok mask) (hr : x - 1 = r) :
    (newton.init unitEquation #v[x]).value = .ok (.initial #v[r]) := by
  refine value_init_eq_ok_iff.2 ⟨Nat.one_ne_zero, #v[r], ?_, rfl, ⟨mask, hm⟩, rfl⟩
  rw [unitEquation, System.residualVector_ofMaps, ← hr]
  rfl

theorem init_standard : ((Solver.standard.newton Binary64).init unitEquation #v[⟨3⟩]).value =
    .ok (.initial #v[⟨2⟩]) :=
  init_unitEquation (show maskFor _ _ 1 = .ok #v[true] from rfl) (by decide +kernel)

variable {α : Type} {n : Nat} [Elementary α] [Decomposes α] {solver : Solver}
  {system : System α n} {y₀ : Vector α n} {s₀ : State α n}

/-- On a system with values of the right shapes, from an admissible start, with tolerances and a
pivot threshold that can be used, the steps go on for ever. With a budget that the counter can
reach a run stops at the first place that is its budget or has a flag up. There it reports
iterate, place and norm, and as outcome the first flag in the order of precedence, or
that the budget is used up, which is then the case. A budget that the counter cannot reach is
none : the run stops at the first place with a flag up, or never. Tolerances that cannot be
used are refused at the first look at the flags. -/
theorem run_ends_at_first_stop (hsq : system.IsSquare)
    (h₀ : ((solver.newton α).init system y₀).value = .ok s₀) :
    (solver.TolerancesFit → solver.PivotsUsable →
      ∃ (y : Nat → Vector α n) (s : Nat → State α n), y 0 = y₀ ∧ s 0 = s₀ ∧
        (∀ k, ((solver.newton α).step system (y k) (s k)).value = .ok (y (k + 1), s (k + 1))) ∧
        (solver.machine.Counts solver.maxSteps → ∃ (K : Nat) (outcome : Outcome),
          IsLeast {k | k = solver.maxSteps ∨ ((solver.newton α).status (s k)).raised = true} K ∧
          ((solver.newton α).run system y₀).value = .ok
            { value := y K, outcome := outcome, steps := K, residualNorm := (s K).norm } ∧
          (outcome = if ((solver.newton α).status (s K)).converged then .success
            else if ((solver.newton α).status (s K)).singular then .singularJacobian
            else if ∃ i, Scalar.isFinite ((s K).residual.get i) = false then .nonFinite
            else .maxIterations) ∧
          (outcome = .maxIterations → K = solver.maxSteps)) ∧
        (¬solver.machine.Counts solver.maxSteps →
          (∃ K, IsLeast {k | ((solver.newton α).status (s k)).raised = true} K ∧
            ((solver.newton α).run system y₀).value =
              .ok ((solver.newton α).ending (y K) (s K))) ∨
          (∀ k, ((solver.newton α).status (s k)).raised = false) ∧
            ((solver.newton α).run system y₀).value = .error .endless)) ∧
    (¬solver.TolerancesFit →
      ((solver.newton α).run system y₀).value = .error .toleranceTooLarge ∨
      ((solver.newton α).run system y₀).value = .error .toleranceNotNumeric) := by
  refine ⟨fun ht hp => ?_, fun ht => ?_⟩
  · obtain ⟨y, s, hy, hs, hstep, hsteps, hend⟩ := exists_first_stop hsq h₀
      (Solver.checkTolerances_newton ht) (Solver.checkPivots_newton hp)
    refine ⟨y, s, hy, hs, hstep, fun hc => ?_, fun hc => ?_⟩
    · rcases hend with ⟨K, hleast, hrun⟩ | ⟨-, hnot, -⟩
      · have hleast : IsLeast {k | k = solver.maxSteps ∨
            ((solver.newton α).status (s k)).raised = true} K :=
          ⟨hleast.1.imp_left And.left, fun j hj => hleast.2 (hj.imp_left fun hj => ⟨hj, hc⟩)⟩
        have hK : K ≤ solver.maxSteps := hleast.2 (Or.inl rfl)
        refine ⟨K, ((solver.newton α).ending (y K) (s K)).outcome, hleast, ?_, ?_, fun ho => ?_⟩
        · rw [hrun]
          simp only [ending, hsteps]
          rw [show (solver.newton α).machine.counted K = K from
            Machine.counted_of_counts (hc.mono hK)]
        · rw [outcome_ending]
          simp only [← Vec.allFinite_eq_false_iff]
          cases Vec.allFinite (s K).residual <;> rfl
        · refine hleast.1.resolve_right ?_
          rw [raised_of_outcome_ending ho]
          exact Bool.false_ne_true
      · exact absurd hc hnot
    · rcases hend with ⟨K, hleast, hrun⟩ | ⟨hall, -, hrun⟩
      · exact Or.inl ⟨K, ⟨hleast.1.resolve_left fun h => hc h.2, fun j hj => hleast.2 (Or.inr hj)⟩,
          hrun⟩
      · exact Or.inr ⟨hall, hrun⟩
  · rw [value_run h₀]
    rcases Solver.checkTolerances_newton_of_not (α := α) ht with h | h
    · exact Or.inl (by rw [h]; rfl)
    · exact Or.inr (by rw [h]; rfl)

/-- The run from three in the default configuration. -/
theorem run_unitEquation_ends :
    ∃ solution, ((Solver.standard.newton Binary64).run unitEquation #v[⟨3⟩]).value = .ok solution ∧
      solution.steps ≤ 100 ∧ (solution.outcome = .maxIterations → solution.steps = 100) := by
  obtain ⟨y, s, -, -, -, hend, -⟩ := (run_ends_at_first_stop isSquare_unitEquation init_standard).1
    Solver.tolerancesFit_standard Solver.pivotsUsable_standard
  obtain ⟨K, outcome, ⟨-, hleast⟩, hrun, -, hlast⟩ := hend Solver.counts_standard
  have hK : K ≤ 100 := hleast (Or.inl rfl)
  refine ⟨_, hrun, Int.ofNat_le.2 hK, fun ho => ?_⟩
  exact congrArg Int.ofNat (hlast ho)

/-- A budget that a counter of 32 bits cannot reach. -/
def endlessSolver : Solver :=
  { Solver.standard with maxSteps := 3000000000, machine := { wide := false } }

/-- The linear step that is taken everywhere where the residual is one. -/
def rootlessStep : LinearStep Binary32 1 :=
  .lu #v[#v[1]] (Vec.neg #v[1]) (LinearStep.standardPivotRtol 1)

theorem rootlessStep_usable : rootlessStep.usable = true := by
  decide +kernel

theorem rootlessStep_stays : advance #v[true] #v[0] rootlessStep = #v[0] := by
  decide +kernel

/-- From zero the equation without a root is stepped on for ever, and the iterate stays there. -/
theorem run_rootlessEquation :
    ((endlessSolver.newton Binary32).run rootlessEquation #v[0]).value = .error .endless := by
  have hsq : rootlessEquation.IsSquare := System.isSquare_ofMaps _ _
  have h₀ : ((endlessSolver.newton Binary32).init rootlessEquation #v[0]).value =
      .ok (.initial #v[1]) :=
    value_init_ofMaps Nat.one_ne_zero (show maskFor _ _ 1 = .ok #v[true] from rfl) _ _ _
  obtain ⟨y, s, hy, hs, hstep, -, hend⟩ :=
    (run_ends_at_first_stop hsq h₀).1 ⟨rfl, rfl⟩ Solver.pivotsUsable_standard
  have hstays : ∀ k, y k = #v[0] ∧ (s k).norm = Vec.norm (#v[1] : Vector Binary32 1) ∧
      (s k).initialNorm = Vec.norm (#v[1] : Vector Binary32 1) ∧ (s k).residual = #v[1] ∧
      (s k).stepFailed = false := by
    intro k
    induction k with
    | zero => exact ⟨hy, by rw [hs]; exact ⟨rfl, rfl, rfl, rfl⟩⟩
    | succ k ih =>
      obtain ⟨hyk, -, hinit, hres, -⟩ := ih
      obtain ⟨mask, A, d, f, hm, hA, hd, hy', hf, hs'⟩ := value_step_eq_ok_iff.1 (hstep k)
      obtain rfl : #v[true] = mask := Except.ok.inj hm
      obtain rfl : #v[#v[1]] = A :=
        Except.ok.inj ((System.jacobianMatrix_ofMaps (y k) _ _).symm.trans hA)
      obtain rfl : #v[1] = f :=
        Except.ok.inj ((System.residualVector_ofMaps (y (k + 1)) _ _).symm.trans hf)
      rw [hres] at hd
      obtain rfl : rootlessStep = d := Except.ok.inj hd
      rw [hyk, rootlessStep_stays] at hy'
      rw [hs']
      refine ⟨hy', rfl, hinit, rfl, ?_⟩
      rw [State.after, rootlessStep_usable]
      rfl
  have hdown : ∀ k, ((endlessSolver.newton Binary32).status (s k)).raised = false := by
    intro k
    obtain ⟨-, hnorm, hinit, hres, hfailed⟩ := hstays k
    unfold status State.flags Flags.raised
    rw [hnorm, hinit, hres, hfailed]
    decide +kernel
  rcases hend (by decide) with ⟨K, hleast, -⟩ | ⟨-, hrun⟩
  · have hraised : ((endlessSolver.newton Binary32).status (s K)).raised = true := hleast.1
    rw [hdown K] at hraised
    cases hraised
  · exact hrun

/-- Three accepted configurations with which a run has no solution, though its start is admissible
and all values have the right shapes : an integer tolerance of more than 64 bits, one of more
than 32 bits where integers have no more, and a budget that the counter cannot reach. -/
theorem run_of_accepted_fails :
    (∃ solver s₀, Solver.ofSettings { atol := .int 10000000000000000000 } = .ok solver ∧
      unitEquation.IsSquare ∧
      ((solver.newton Binary64).init unitEquation #v[⟨3⟩]).value = .ok s₀ ∧
      ((solver.newton Binary64).run unitEquation #v[⟨3⟩]).value = .error .toleranceTooLarge) ∧
    (∃ solver s₀, Solver.ofSettings { atol := .int 2147483648, machine := { wide := false } } =
        .ok solver ∧
      rootlessEquation.IsSquare ∧
      ((solver.newton Binary32).init rootlessEquation #v[0]).value = .ok s₀ ∧
      ((solver.newton Binary32).run rootlessEquation #v[0]).value =
        .error .toleranceTooLarge) ∧
    ∃ solver s₀, Solver.ofSettings
        { maxSteps := .int 3000000000, machine := { wide := false } } = .ok solver ∧
      rootlessEquation.IsSquare ∧
      ((solver.newton Binary32).init rootlessEquation #v[0]).value = .ok s₀ ∧
      ((solver.newton Binary32).run rootlessEquation #v[0]).value = .error .endless := by
  have hunit : ∀ atol, ((Solver.newton Binary64 { Solver.standard with atol := atol }).init
      unitEquation #v[⟨3⟩]).value = .ok (.initial #v[⟨2⟩]) := fun atol =>
    init_unitEquation (show maskFor _ _ 1 = .ok #v[true] from rfl) (by decide +kernel)
  have hrootless : ∀ atol maxSteps, ((Solver.newton Binary32 { endlessSolver with
      atol := atol, maxSteps := maxSteps }).init rootlessEquation #v[0]).value =
        .ok (.initial #v[1]) := fun atol maxSteps =>
    value_init_ofMaps Nat.one_ne_zero (show maskFor _ _ 1 = .ok #v[true] from rfl) _ _ _
  refine ⟨⟨{ Solver.standard with atol := .int 10000000000000000000 }, _, rfl,
      isSquare_unitEquation, hunit _, ?_⟩,
    ⟨{ endlessSolver with atol := .int 2147483648, maxSteps := 100 }, _, rfl,
      System.isSquare_ofMaps _ _, hrootless _ _, ?_⟩,
    ⟨endlessSolver, _, rfl, System.isSquare_ofMaps _ _, hrootless _ _, run_rootlessEquation⟩⟩
  · rw [value_run (hunit _)]
    rfl
  · rw [value_run (hrootless _ _)]
    rfl

end Newton

end Stationary
