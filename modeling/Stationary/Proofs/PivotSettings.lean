import Stationary.Proofs.LoopHeads
import Stationary.Proofs.Misfits

/-!
# Pivot thresholds that are no thresholds

All settings are checked before there is a solver, but for the pivot threshold : it is kept as it
was given, whatever it is (`Solver.ofSettings_pivotRtol`). A step by elimination is the first
that looks at it, and takes what is left out or a float, and nothing else
(`Solver.pivotsUsable_iff`). Any other threshold fails every step, from whatever iterate and
state, and with a threshold that can be used no step of an admissible run fails
(`Newton.steps_need_pivot_threshold`). Whether a run with the wrong kind of threshold has a
solution is decided by its start alone : it has one if it needs no step.
-/

set_option linter.unusedSectionVars false

namespace Stationary

open Journaled

namespace Solver

/-- Whether settings are accepted does not depend on the pivot threshold, and the solver keeps it
as it is. -/
theorem ofSettings_pivotRtol (settings : Settings) (v : Setting) :
    ofSettings { settings with pivotRtol := v } =
      (ofSettings settings).map fun solver => { solver with pivotRtol := v } := by
  unfold ofSettings
  cases settings.hasJacobian with
  | false => rfl
  | true =>
    simp only [bind, Bool.not_true, Bool.false_eq_true, if_false, map_bind_eq]
    rfl

variable {settings : Settings} {solver : Solver} {v : Setting}

/-- With the threshold `v` accepted settings make the same solver, but for the threshold. -/
theorem ofSettings_of_other (h : ofSettings settings = .ok solver) :
    ofSettings { settings with pivotRtol := v } = .ok { solver with pivotRtol := v } := by
  rw [ofSettings_pivotRtol, h]
  rfl

theorem pivotRtol_of_ofSettings (h : ofSettings settings = .ok solver) :
    solver.pivotRtol = settings.pivotRtol := by
  obtain ⟨-, -, -, -, -, -, hpivot, -⟩ := ofSettings_eq_ok_iff.1 h
  exact hpivot.symm

/-- Elimination can use a threshold that is left out, or a float. -/
theorem pivotsUsable_iff (hlu : solver.linearMethod = .lu) :
    solver.PivotsUsable ↔ solver.pivotRtol = .nothing ∨ ∃ r, solver.pivotRtol = .float r := by
  constructor
  · rintro (hls | h)
    · rw [hlu] at hls
      cases hls
    · exact h
  · exact Or.inr

end Solver

namespace Newton

section Runs

variable {α : Type} {n : Nat} [Elementary α] [Decomposes α] {settings : Settings} {solver : Solver}
  {system : System α n} {y₀ : Vector α n} {s₀ : State α n}

/-- Settings for elimination are accepted with any pivot threshold if they are with one. On a
system of fixed shapes with an admissible start, every step has a result if and only if the
threshold is left out or a float; then a run with tolerances that fit has a solution, or it goes
on for ever because its counter cannot reach the budget. With any other threshold every step
fails, and a run has a solution only if it needs no step. -/
theorem steps_need_pivot_threshold (hsettings : Solver.ofSettings settings = .ok solver)
    (hlu : solver.linearMethod = .lu) (hdef : system.NeverFaults) (hfixed : system.FixedShapes)
    (h₀ : ((solver.newton α).init system y₀).value = .ok s₀) :
    (∀ v, Solver.ofSettings { settings with pivotRtol := v } =
      .ok { solver with pivotRtol := v }) ∧
    ((∀ y s, ∃ y' s', ((solver.newton α).step system y s).value = .ok (y', s')) ↔
      settings.pivotRtol = .nothing ∨ ∃ r, settings.pivotRtol = .float r) ∧
    (settings.pivotRtol = .nothing ∨ (∃ r, settings.pivotRtol = .float r) →
      solver.TolerancesFit →
      (∃ solution, ((solver.newton α).run system y₀).value = .ok solution) ∨
      (solver.newton α).GoesOn system y₀ ∧ ¬solver.machine.Counts solver.maxSteps) ∧
    (¬(settings.pivotRtol = .nothing ∨ ∃ r, settings.pivotRtol = .float r) →
      (∀ y s, ((solver.newton α).step system y s).value = .error .pivotThreshold) ∧
      (solver.TolerancesFit → ((solver.newton α).run system y₀).value =
        if solver.maxSteps = 0 ∨ ((solver.newton α).status s₀).raised = true then
          .ok ((solver.newton α).ending y₀ s₀)
        else .error .pivotThreshold)) := by
  have hsq : system.IsSquare := isSquare_of_init hdef hfixed h₀
  obtain ⟨-, -, -, -, ⟨mask, hm⟩, -⟩ := value_init_eq_ok_iff.1 h₀
  rw [← Solver.pivotRtol_of_ofSettings hsettings, ← Solver.pivotsUsable_iff hlu]
  have hunusable : ¬solver.PivotsUsable →
      ∀ y s, ((solver.newton α).step system y s).value = .error .pivotThreshold :=
    fun hp => value_step_of_unusable hsq (Solver.checkPivots_newton_of_not hp) hm
  refine ⟨fun v => Solver.ofSettings_of_other hsettings, ⟨fun hsteps => ?_, fun hp => ?_⟩,
    fun hp ht => ?_, fun hp => ⟨hunusable hp, fun ht => ?_⟩⟩
  · by_contra hp
    obtain ⟨y', s', hstep⟩ := hsteps y₀ s₀
    rw [hunusable hp] at hstep
    cases hstep
  · exact exists_step hsq (Solver.checkPivots_newton hp) hm
  · exact exists_solution_or_goesOn hsq h₀ (Solver.checkTolerances_newton ht)
      (Solver.checkPivots_newton hp)
  · exact value_run_of_unusable hsq h₀ (Solver.checkTolerances_newton ht)
      (Solver.checkPivots_newton_of_not hp)

end Runs

/-- In the default configuration no step for `y - 1 = 0` fails. -/
theorem steps_unitEquation_have_results :
    (∀ y s, ∃ y' s', ((Solver.standard.newton Binary64).step unitEquation y s).value =
        .ok (y', s')) ∧
      ∃ solution, ((Solver.standard.newton Binary64).run unitEquation #v[⟨3⟩]).value =
        .ok solution := by
  obtain ⟨-, hsteps, hrun, -⟩ := steps_need_pivot_threshold (α := Binary64)
    Solver.ofSettings_standard rfl (System.neverFaults_ofMaps _ _) (System.fixedShapes_ofMaps _ _)
    init_standard
  exact ⟨hsteps.2 (Or.inl rfl), (hrun (Or.inl rfl) Solver.tolerancesFit_standard).resolve_right
    fun hon => hon.2 Solver.counts_standard⟩

/-- The threshold zero, as an integer, is accepted and fails the first step. -/
theorem accepted_threshold_fails_step :
    ∃ solver s₀, Solver.ofSettings { pivotRtol := .int 0 } = .ok solver ∧
      solver.linearMethod = .lu ∧ unitEquation.NeverFaults ∧ unitEquation.FixedShapes ∧
      ((solver.newton Binary64).init unitEquation #v[⟨3⟩]).value = .ok s₀ ∧
      ((solver.newton Binary64).step unitEquation #v[⟨3⟩] s₀).value = .error .pivotThreshold ∧
      ((solver.newton Binary64).run unitEquation #v[⟨3⟩]).value = .error .pivotThreshold := by
  let solver : Solver := { Solver.standard with pivotRtol := .int 0 }
  have hmask : maskFor {} solver.projection 1 = .ok #v[true] := rfl
  have hinit : ((solver.newton Binary64).init unitEquation #v[⟨3⟩]).value =
      .ok (.initial #v[⟨2⟩]) := init_unitEquation hmask (by decide +kernel)
  have hraised : ((solver.newton Binary64).status (State.initial #v[⟨2⟩])).raised = false := by
    decide +kernel
  refine ⟨solver, _, rfl, rfl, System.neverFaults_ofMaps _ _, System.fixedShapes_ofMaps _ _, hinit,
    value_step_of_unusable isSquare_unitEquation rfl hmask _ _, ?_⟩
  rw [value_run_of_unusable isSquare_unitEquation hinit rfl rfl, hraised]
  rfl

end Newton

end Stationary
