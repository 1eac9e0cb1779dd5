import Stationary.Session
import Stationary.Proofs.Flushing
import Stationary.Proofs.Stopping

/-!
# What convergence means

The residual and its norm that a state stores are those at its iterate. So a run that
reports success has converged at the value that it returns, and not at an iterate before;
since a norm below anything is that of finite numbers (`Flushed.allFinite_of_lt_norm`), the
residual there is finite.

The threshold is formed with the norm at the start even where the relative tolerance is
zero. By `Flushed.lt_add_zero_mul` the flag is then the comparison with the absolute
tolerance as long as the norm at the start is finite, and false otherwise. The entries
of a residual can all be finite while its norm is not.
-/

set_option linter.unusedSectionVars false

namespace Stationary

namespace Newton

open Journaled

section Runs

variable {α : Type} {n : Nat} [Scalar α] [Decomposes α] {newton : Newton α}
  {system : System α n} {y₀ : Vector α n}

/-- A run that has a solution has it from the last state of a walk. -/
theorem exists_walk_of_run {solution : Solution α n}
    (h : (newton.run system y₀).value = .ok solution) :
    ∃ k y s, newton.walk system y₀ k = .ok (y, s) ∧ solution = newton.ending y s := by
  have hrun := h
  unfold run at hrun
  rw [value_bind] at hrun
  obtain ⟨s₀, h₀, hrest⟩ := bind_eq_ok_iff.1 hrun
  rw [value_bind, value_ofExcept, mapError_id] at hrest
  obtain ⟨_, ht, -⟩ := bind_eq_ok_iff.1 hrest
  rcases run_stops h₀ ht with ⟨-, hend⟩ | ⟨K, -, ⟨z, t, hz, -, hend⟩ | ⟨e, -, hend⟩⟩
  · rw [h] at hend
    cases hend
  · rw [h] at hend
    exact ⟨K, z, t, hz, Except.ok.inj hend⟩
  · rw [h] at hend
    cases hend

end Runs

section Formats

variable {α : Type} {n : Nat} [Scalar α] [Subnormal α] [Binade α] [BinaryFormat α]

/-- Every state of a walk belongs to its iterate : its counter shows the number of steps, it stores
the residual there with its norm, keeps the norm at the start, and says whether the last linear
step could be used. So a run that reports success has converged at the value it returns, whose
residual has the reported norm and finite entries. -/
theorem states_of_walk_and_success (newton : Newton (Flushed α)) (system : System (Flushed α) n)
    (y₀ : Vector (Flushed α) n) :
    (∀ k y s, newton.walk system y₀ k = .ok (y, s) →
      s.steps = newton.machine.counted k ∧ system.residualVector y = .ok s.residual ∧
        s.norm = Vec.norm s.residual ∧
        (∃ f₀, system.residualVector y₀ = .ok f₀ ∧ s.initialNorm = Vec.norm f₀) ∧
        (s.stepFailed = true ↔ ∃ j z t d, k = j + 1 ∧ newton.walk system y₀ j = .ok (z, t) ∧
          newton.Solves system z t d ∧ d.usable = false)) ∧
    (∀ solution, (newton.run system y₀).value = .ok solution → solution.outcome = .success →
      ∃ f f₀, system.residualVector solution.value = .ok f ∧
        system.residualVector y₀ = .ok f₀ ∧ solution.residualNorm = Vec.norm f ∧
        Scalar.lt (Vec.norm f) (newton.atol + newton.rtol * Vec.norm f₀) = true ∧
        ∀ i, Scalar.isFinite (f.get i) = true) := by
  refine ⟨fun k y s h => ?_, fun solution hrun hsuccess => ?_⟩
  · obtain ⟨hsteps, hres, hnorm, hinit⟩ := tracks_walk h
    exact ⟨hsteps, hres, hnorm, hinit, stepFailed_walk h⟩
  · obtain ⟨k, y, s, hwalk, rfl⟩ := exists_walk_of_run hrun
    obtain ⟨-, hres, hnorm, f₀, hf₀, hinit⟩ := tracks_walk hwalk
    have hlt : Scalar.lt s.norm (newton.atol + newton.rtol * s.initialNorm) = true :=
      converged_of_outcome_ending hsuccess
    rw [hnorm, hinit] at hlt
    have hfin := Flushed.allFinite_of_lt_norm hlt
    refine ⟨s.residual, f₀, hres, hf₀, hnorm, hlt, fun i => ?_⟩
    exact Vector.all_eq_true.1 hfin i i.isLt

/-- The run from three in the default configuration, and the state after its first step. -/
theorem states_of_unitEquation :
    (∃ y s, (Solver.standard.newton Binary64).walk unitEquation #v[⟨3⟩] 1 = .ok (y, s) ∧
      s.steps = 1 ∧ unitEquation.residualVector y = .ok s.residual) ∧
    ∃ solution f, ((Solver.standard.newton Binary64).run unitEquation #v[⟨3⟩]).value =
        .ok solution ∧ solution.outcome = .success ∧
      unitEquation.residualVector solution.value = .ok f ∧
      solution.residualNorm = Vec.norm f ∧ ∀ i, Scalar.isFinite (f.get i) = true := by
  have htracks := states_of_walk_and_success (Solver.standard.newton Binary64) unitEquation #v[⟨3⟩]
  refine ⟨?_, ?_⟩
  · obtain ⟨y, s, hwalk⟩ :=
      exists_walk isSquare_unitEquation
      (Solver.checkPivots_newton Solver.pivotsUsable_standard) init_standard 1
    obtain ⟨hsteps, hres, -⟩ := htracks.1 1 y s hwalk
    exact ⟨y, s, hwalk, hsteps, hres⟩
  · have heval : ((Solver.standard.newton Binary64).runFor unitEquation 2
        #v[⟨3⟩]).map (·.toOption.map Solution.outcome) = some (some .success) := by decide +kernel
    obtain ⟨solution, hrun, hsuccess⟩ := exists_run_of_runFor heval
    obtain ⟨f, -, hres, -, hnorm, -, hfin⟩ := htracks.2 solution hrun hsuccess
    exact ⟨solution, f, hrun, hsuccess, hres, hnorm, hfin⟩

/-- Without a relative tolerance, the flag of any state of a walk compares with the absolute
tolerance if the norm at the start is finite, and is down otherwise. -/
theorem converged_of_zero_rtol {newton : Newton (Flushed α)} {system : System (Flushed α) n}
    {y₀ y : Vector (Flushed α) n} {s : State (Flushed α) n} {k : Nat}
    (hr : newton.rtol = 0 ∨ newton.rtol = -0) (h : newton.walk system y₀ k = .ok (y, s)) :
    ∃ f₀, system.residualVector y₀ = .ok f₀ ∧
      (newton.status s).converged =
        (Scalar.isFinite (Vec.norm f₀) && Scalar.lt s.norm newton.atol) ∧
      ((newton.status s).converged = Scalar.lt s.norm newton.atol ↔
        Scalar.isFinite (Vec.norm f₀) = true ∨ Scalar.lt s.norm newton.atol = false) := by
  obtain ⟨f₀, hf₀, hinit⟩ := (tracks_walk h).initialNorm
  have hflag : (newton.status s).converged =
      (Scalar.isFinite (Vec.norm f₀) && Scalar.lt s.norm newton.atol) := by
    show Scalar.lt s.norm (newton.atol + newton.rtol * s.initialNorm) = _
    rw [hinit]
    exact Flushed.lt_add_zero_mul (Flushed.isZero_of_eq hr) _ _ _
  refine ⟨f₀, hf₀, hflag, ?_⟩
  rw [hflag]
  cases Scalar.isFinite (Vec.norm f₀) <;> simp

/-- The flag after one step from three in the default configuration. -/
theorem converged_of_zero_rtol_unitEquation :
    ∃ y s f₀, (Solver.standard.newton Binary64).walk unitEquation #v[⟨3⟩] 1 = .ok (y, s) ∧
      unitEquation.residualVector #v[⟨3⟩] = .ok f₀ ∧
      ((Solver.standard.newton Binary64).status s).converged =
        (Scalar.isFinite (Vec.norm f₀) &&
          Scalar.lt s.norm (Solver.standard.newton Binary64).atol) := by
  obtain ⟨y, s, hwalk⟩ :=
    exists_walk isSquare_unitEquation
      (Solver.checkPivots_newton Solver.pivotsUsable_standard) init_standard 1
  obtain ⟨f₀, hf₀, hflag, -⟩ := converged_of_zero_rtol (Or.inl rfl) hwalk
  exact ⟨y, s, f₀, hwalk, hf₀, hflag⟩

end Formats

/-- One unknown, less one and a half. -/
def halvesProblem : Problem :=
  .formulas
    { residualFormula := .array [.binary .sub (.unknown 0) (.constant (.float 1.5))]
      jacobianFormula := .array [.array [.constant (.whole 1)]]
      needsNumbers := false
      parameters := none }

/-- The iterate three as an array of integers. -/
def wholeThree : NumericArray :=
  ⟨.whole .int64, .ofVector #v[.whole 3]⟩

/-- Two states that do not belong to their iterates in this way. At an iterate of integers the
residual loses its fraction before it is stored. A counter of 32 bits has wrapped around after
`2³¹` steps. -/
theorem states_of_walk_fail :
    (∃ s st, (Session.start wholeThree).init halvesProblem .standard = .ok s ∧
      s.state = some st ∧ st.state.residual.toArray.map Mixed.toFloat = #[1] ∧
      (halvesProblem.residual wholeThree.mixed).toOption.map (·.entries.map Mixed.toFloat) =
        some #[1.5]) ∧
    ∃ y s, (endlessSolver.newton Binary32).walk rootlessEquation #v[0] 2147483648 = .ok (y, s) ∧
      s.steps = -2147483648 := by
  constructor
  · have heval : ((Session.start wholeThree).init halvesProblem .standard).toOption.bind
        (fun s => s.state.map fun st => st.state.residual.toArray.map Mixed.toFloat) =
          some #[1] := by decide +kernel
    cases hs : (Session.start wholeThree).init halvesProblem .standard with
    | error e =>
      rw [hs] at heval
      cases heval
    | ok s =>
      rw [hs] at heval
      obtain ⟨st, hst, hres⟩ := Option.map_eq_some_iff.1 heval
      exact ⟨s, st, rfl, hst, hres, by decide +kernel⟩
  · have h₀ : ((endlessSolver.newton Binary32).init rootlessEquation #v[0]).value =
        .ok (.initial #v[1]) :=
      value_init_ofMaps Nat.one_ne_zero (show maskFor _ _ 1 = .ok #v[true] from rfl) _ _ _
    have hsteps : ∀ k, ∃ y s, (endlessSolver.newton Binary32).walk rootlessEquation #v[0] k =
        .ok (y, s) ∧ s.steps = endlessSolver.machine.counted k := by
      intro k
      have hp : (endlessSolver.newton Binary32).checkPivots = .ok () := rfl
      obtain ⟨y, s, hwalk⟩ := exists_walk (System.isSquare_ofMaps _ _) hp h₀ k
      exact ⟨y, s, hwalk, (tracks_walk hwalk).steps⟩
    have hcounted : endlessSolver.machine.counted 2147483648 = -2147483648 := by decide +kernel
    rw [← hcounted]
    exact hsteps _

/-- The system of two equations `y = 0`. -/
def identitySystem : System Binary64 2 :=
  .ofMaps (fun y => y) fun _ => #v[#v[1, 0], #v[0, 1]]

/-- In the default configuration, from two entries of `10²⁰⁰`, the first step ends at a root with
the norm zero, which is below the absolute tolerance; but the flag is down there. -/
theorem converged_of_overflow_fails :
    Solver.ofSettings {} = .ok Solver.standard ∧
      Vec.allFinite (#v[⟨1e200⟩, ⟨1e200⟩] : Vector Binary64 2) = true ∧
      ∃ y s, (Solver.standard.newton Binary64).walk identitySystem #v[⟨1e200⟩, ⟨1e200⟩] 1 =
          .ok (y, s) ∧
        s.norm = 0 ∧ Scalar.lt s.norm (Solver.standard.newton Binary64).atol = true ∧
        ((Solver.standard.newton Binary64).status s).converged = false := by
  have heval : ((Solver.standard.newton Binary64).walk identitySystem #v[⟨1e200⟩, ⟨1e200⟩]
      1).toOption.map (fun p => (p.2.norm,
        Scalar.lt p.2.norm (Solver.standard.newton Binary64).atol,
        ((Solver.standard.newton Binary64).status p.2).converged)) =
      some (0, true, false) := by decide +kernel
  refine ⟨rfl, by decide +kernel, ?_⟩
  cases hwalk : (Solver.standard.newton Binary64).walk identitySystem #v[⟨1e200⟩, ⟨1e200⟩] 1 with
  | error e =>
    rw [hwalk] at heval
    cases heval
  | ok p =>
    rw [hwalk] at heval
    obtain ⟨hnorm, hlt, hflag⟩ : p.2.norm = 0 ∧
        Scalar.lt p.2.norm (Solver.standard.newton Binary64).atol = true ∧
        ((Solver.standard.newton Binary64).status p.2).converged = false := by
      simpa [Except.toOption] using heval
    exact ⟨p.1, p.2, rfl, hnorm, hlt, hflag⟩

end Newton

end Stationary
