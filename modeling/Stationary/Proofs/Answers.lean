import Stationary.Proofs.CommandEndings
import Stationary.Proofs.Admission

/-!
# Answers

Two callers translate the outcome of a run. An answer is a flag and an iterate, or an error with the
solution; the command has an exit code and a report. Both do so by the outcome alone : the
flag is true exactly for a success, false exactly for a budget that is used up, and each of the
other two outcomes has an error of its own (`Solution.isAnswered_answer`), and the exit code is
zero exactly for a success (`Command.exitCode_runIn_iff`).

That the two agree needs that they are about the same run. The command runs the standard problem
as it is, and an answer is one on the problem as a caller states it, whose data are numbers that
have to fit (`Problem.system_reference`).
-/

set_option linter.unusedSectionVars false

namespace Stationary

open Journaled

/-! ## Outcomes -/

section Solutions

variable {α : Type} {n : Nat} {s : Solution α n}

/-- An answer says by its flag, or by its error, how the run with a budget ended that has the
solution `s`. -/
structure Solution.IsAnswered (s : Solution α n) (budget : Setting)
    (answer : Except (Breakdown α n) (Bool × Vector α n)) : Prop where
  success (v : Vector α n) : answer = .ok (true, v) ↔ s.outcome = .success ∧ v = s.value
  maxIterations (v : Vector α n) :
    answer = .ok (false, v) ↔ s.outcome = .maxIterations ∧ v = s.value
  singularJacobian (s' : Solution α n) :
    answer = .error (.singularJacobian s') ↔ s.outcome = .singularJacobian ∧ s' = s
  nonFinite (s' : Solution α n) :
    answer = .error (.nonFiniteResidual s') ↔ s.outcome = .nonFinite ∧ s' = s
  exhausted : s.outcome = .maxIterations → budget = .int s.steps

theorem Solution.converged_eq_true_iff : s.converged = true ↔ s.outcome = .success := by
  unfold converged
  exact decide_eq_true_iff

/-- Every outcome has its own kind of answer. -/
theorem Solution.isAnswered_answer {budget : Setting}
    (h : s.outcome = .maxIterations → budget = .int s.steps) : s.IsAnswered budget s.answer := by
  obtain ⟨value, outcome, steps, norm⟩ := s
  refine ⟨fun v => ?_, fun v => ?_, fun s' => ?_, fun s' => ?_, h⟩ <;>
    cases outcome <;> simp [answer, converged, eq_comm]

theorem Solution.answer_of_converged (h : s.converged = true) : s.answer = .ok (true, s.value) := by
  have houtcome := converged_eq_true_iff.1 h
  unfold answer
  rw [houtcome, h]

end Solutions

/-! ## Settings -/

/-- The settings that a caller who asks for an answer can give, on a machine. -/
def Settings.forAnswer (machine : Machine) (budget tolerance projection linearSolver : Setting) :
    Settings where
  atol := tolerance
  maxSteps := budget
  projection := projection
  linearSolver := linearSolver
  machine := machine

namespace Solver

variable {solver : Solver}

theorem eq_of_checkBudget {budget : Setting} {m : Nat} (h : checkBudget budget = .ok m) :
    budget = .int m := by
  cases budget with
  | int i =>
    by_cases hi : i < 0
    · rw [checkBudget, if_pos hi] at h
      cases h
    · rw [checkBudget, if_neg hi] at h
      rw [← Except.ok.inj h, Int.toNat_of_nonneg (by omega)]
  | _ => cases h

/-- A budget that is accepted is an integer, and it is kept. -/
theorem maxSteps_of_ofSettings {settings : Settings} (h : ofSettings settings = .ok solver) :
    settings.maxSteps = .int solver.maxSteps := by
  obtain ⟨-, hbudget, -⟩ := ofSettings_eq_ok_iff.1 h
  exact eq_of_checkBudget hbudget

end Solver

/-! ## Runs and answers -/

namespace Newton

variable {α : Type} {n : Nat} [Scalar α] [Decomposes α]

/-- The answer from a tensor, with a system for each number of unknowns. -/
def solveFrom (newton : Newton α) (systems : (n : Nat) → System α n) (y : Tensor α) :
    Ending α fun n => Except (Breakdown α n) (Bool × Vector α n) :=
  launch (fun n v => solve newton (systems n) v) y

/-- The answer on a problem is one of these. -/
theorem solve_problem_eq_solveFrom {α : Type} [Elementary α] [Decomposes α] [Inhabited α]
    [OfKind α] (p : Problem) (newton : Newton α) (y : Tensor α) :
    p.solve newton y = newton.solveFrom (p.system (OfKind.kind α)) y :=
  rfl

variable {newton : Newton α} {systems : (n : Nat) → System α n}

/-- A run uses up its budget only if it has made all its steps. -/
theorem steps_of_maxIterations {system : System α n} {y₀ : Vector α n} {s : Solution α n}
    (hrun : (newton.run system y₀).value = .ok s) (h : s.outcome = .maxIterations) :
    s.steps = newton.maxSteps := by
  obtain ⟨k, t, hvisit, hend, hstop⟩ := exists_visits_of_run hrun
  rw [hvisit.steps_of_ending hend]
  rw [← hend] at h
  have hbudget : newton.maxSteps ≤ newton.machine.counted k := by
    refine hstop.resolve_right ?_
    rw [raised_of_outcome_ending h]
    exact Bool.false_ne_true
  obtain rfl := hvisit.eq_maxSteps hbudget
  exact Int.le_antisymm (Machine.counted_le_self _) hbudget

theorem solveFrom_ofVector (v : Vector α n) : newton.solveFrom systems (.ofVector v) =
    { size := n
      result := (newton.run (systems n) v).value.map Solution.answer
      journal := (newton.run (systems n) v).written } := by
  unfold solveFrom solve
  rw [launch_ofVector, start_map]

/-- A tensor from which a run has a solution is a vector, and the run is that from the vector. -/
theorem exists_ofVector_of_runFrom {y : Tensor α} {s : Solution α n} {journal : Journal α n}
    (h : newton.runFrom systems y = { size := n, result := .ok s, journal := journal }) :
    ∃ v : Vector α n, y = .ofVector v ∧ (newton.run (systems n) v).value = .ok s ∧
      (newton.run (systems n) v).written = journal := by
  by_cases hshape : ∀ m, m ≠ 0 → y.shape ≠ [m]
  · obtain ⟨herror, -⟩ : (newton.runFrom systems y).result = .error (.stateShape y.shape) ∧ _ :=
      runFrom_of_shape hshape
    rw [h] at herror
    cases herror
  · obtain ⟨m, -, hvector⟩ : ∃ m, m ≠ 0 ∧ y.shape = [m] := by
      simpa using hshape
    obtain ⟨v, rfl⟩ := Tensor.exists_eq_ofVector hvector
    rw [runFrom_ofVector] at h
    obtain rfl : m = n := congrArg Ending.size h
    obtain ⟨-, hresult, hjournal⟩ := Ending.mk.inj h
    exact ⟨v, rfl, eq_of_heq hresult, eq_of_heq hjournal⟩

end Newton

/-! ## The standard problem -/

namespace KktData

/-- Where the costs and the capacity are numbers of the arithmetic, the default data are those of
the standard problem. -/
theorem problem_standard {α : Type} [Elementary α]
    (h₃ : (Elementary.ofFloat 3.0 : α) = Scalar.ofNat 3)
    (h₄ : (Elementary.ofFloat 4.0 : α) = Scalar.ofNat 4) :
    problem {} = .ok (Kkt.standard : Kkt α) := by
  rw [problem_eq_ok rfl rfl rfl rfl rfl]
  show Except.ok (Kkt.mk (Elementary.ofFloat 3.0) (Elementary.ofFloat 4.0) (Elementary.ofFloat 4.0)
    (Elementary.ofFloat 4.0)) = _
  rw [h₃, h₄]
  rfl

end KktData

/-- At six unknowns, with two costs and data that fit, a caller who states the reference problem has
the system of the problem itself. -/
theorem Problem.system_reference {α : Type} [Elementary α] [Inhabited α] [Exchange α]
    (h : UniformKind α) {k : NumberKind} {p : Kkt α} {data : KktData} (hp : data.problem = .ok p)
    (hresidual : data.residualShape k [6] = .ok [6])
    (hjacobian : KktData.jacobianShape k [6] = .ok [6, 6]) :
    (Problem.reference data false).system k 6 = p.system := by
  have hvalues : (fun y : Vector α 6 => data.residual (.ofVector y)) =
      fun y => .ok (.ofVector (p.residual y)) :=
    funext fun y => KktData.residual_ofVector h hp y
  have hrows : (fun y : Vector α 6 => KktData.jacobian (.ofVector y)) =
      fun y => .ok (.ofMatrix (Kkt.jacobian y)) :=
    funext fun y => KktData.jacobian_ofVector h y
  unfold Problem.system Kkt.system System.ofMaps
  simp only [Problem.residual, Problem.jacobian, Problem.residualShape, Problem.jacobianShape,
    hvalues, hrows, hresidual, hjacobian, Bool.false_eq_true, if_false]

theorem Problem.system_standard_binary64 :
    (Problem.reference {} false).system .binary64 6 = (Kkt.standard : Kkt Binary64).system :=
  system_reference Flushed.uniformKind
    (KktData.problem_standard (by decide +kernel) (by decide +kernel)) (by decide +kernel)
    (by decide +kernel)

theorem Problem.system_standard_binary32 :
    (Problem.reference {} false).system .binary32 6 = (Kkt.standard : Kkt Binary32).system :=
  system_reference Flushed.uniformKind
    (KktData.problem_standard (by decide +kernel) (by decide +kernel)) (by decide +kernel)
    (by decide +kernel)

/-! ## Commands -/

namespace Command

section Formats

variable {α : Type} [Elementary α] [FloatFormat α] [Decomposes α] [Inhabited α] [OfKind α]
  {solver : Solver} {y : Vector Float 6}

variable (α) in
/-- In the format, the answer on the reference problem is true. -/
def AnswersTrue (solver : Solver) (y : Vector Float 6) : Prop :=
  ∃ v journal, (Problem.reference {} false).solve (solver.newton α)
      (.ofVector (y.map FloatFormat.ofFloat)) =
    { size := 6, result := .ok (.ok (true, v)), journal := journal }

/-- The command and the answer are about the same run : the answer is true exactly if it
converges. -/
theorem answersTrue_iff (hsystem : (Problem.reference {} false).system (OfKind.kind α) 6 =
    (Kkt.standard : Kkt α).system) : AnswersTrue α solver y ↔
      ∃ s, ((solver.newton α).run (Kkt.standard : Kkt α).system
        (y.map FloatFormat.ofFloat)).value = .ok s ∧ s.converged = true := by
  unfold AnswersTrue
  rw [Newton.solve_problem_eq_solveFrom, Newton.solveFrom_ofVector, hsystem]
  constructor
  · rintro ⟨v, journal, h⟩
    obtain ⟨-, hresult, -⟩ := Ending.mk.inj h
    obtain ⟨s, hrun, hanswer⟩ := map_eq_ok_iff.1 (eq_of_heq hresult)
    have hanswered : s.IsAnswered (.int s.steps) s.answer := Solution.isAnswered_answer fun _ => rfl
    obtain ⟨hsuccess, -⟩ := (hanswered.success v).1 hanswer
    exact ⟨s, hrun, Solution.converged_eq_true_iff.2 hsuccess⟩
  · rintro ⟨s, hrun, hconverged⟩
    rw [hrun]
    exact ⟨s.value, _, by rw [Except.map, Solution.answer_of_converged hconverged]⟩

/-- A run of the command ends with exit code zero exactly if the answer is true, and otherwise with
exit code one and nothing on standard output, unless it has no end; then there is no answer. -/
theorem exitCode_runIn_iff (hsystem : (Problem.reference {} false).system (OfKind.kind α) 6 =
    (Kkt.standard : Kkt α).system) (r : Request) (solver : Solver) (y : Vector Float 6) :
    (∃ result, runIn α r solver y = .ok result ∧
      (result.exitCode = 0 ↔ AnswersTrue α solver y) ∧
      (result.exitCode ≠ 0 → result.exitCode = 1 ∧ result.output = [])) ∨
    runIn α r solver y = .error .endless ∧ ¬AnswersTrue α solver y := by
  obtain ⟨lines, hlines⟩ := exists_runIn_eq (α := α) r solver y
  rw [answersTrue_iff hsystem, hlines]
  cases hrun : ((solver.newton α).run (Kkt.standard : Kkt α).system
      (y.map FloatFormat.ofFloat)).value with
  | error cause =>
    cases cause with
    | endless => exact Or.inr ⟨rfl, by simp⟩
    | _ => exact Or.inl ⟨_, rfl, by simp [concludeFailure], fun _ => ⟨rfl, rfl⟩⟩
  | ok s =>
    refine Or.inl ⟨_, rfl, ?_⟩
    cases hconverged : s.converged <;> simp [conclude, hconverged]

/-- The run of a request has no end only if the counter cannot reach the budget. -/
theorem Request.Makes.answers_or_endless {r : Request} (h : r.Makes solver)
    (hsystem : (Problem.reference {} false).system (OfKind.kind α) 6 =
      (Kkt.standard : Kkt α).system) (y : Vector Float 6) :
    (∃ result, runIn α r solver y = .ok result ∧
      (result.exitCode = 0 ↔ Command.AnswersTrue α solver y) ∧
      (result.exitCode ≠ 0 → result.exitCode = 1 ∧ result.output = [])) ∨
    ¬r.Counts ∧ runIn α r solver y = .error .endless ∧ ¬Command.AnswersTrue α solver y := by
  rcases exitCode_runIn_iff hsystem r solver y with hends | ⟨hendless, hanswer⟩
  · exact Or.inl hends
  · rcases h.ends_or_endless (α := α) y with ⟨result, hresult⟩ | ⟨hcount, -⟩
    · rw [hendless] at hresult
      cases hresult
    · exact Or.inr ⟨hcount, hendless, hanswer⟩

end Formats

/-- In the format of a request, the answer on the reference problem is true. -/
def Request.AnswersTrue (r : Request) (solver : Solver) (y : Vector Float 6) : Prop :=
  if r.wide then Command.AnswersTrue Binary64 solver y
  else Command.AnswersTrue Binary32 solver y

/-- The run of a request in binary64 stops at its start, because it has converged. -/
def Request.convergesAtStart (r : Request) : Bool :=
  match r.start?, Solver.ofSettings r.settings with
  | .ok y, .ok solver =>
    r.wide && ((solver.newton Binary64).runFor (Kkt.standard : Kkt Binary64).system 1
      (y.map FloatFormat.ofFloat)).map (·.toOption.map Solution.converged) = some (some true)
  | _, _ => false

/-- The task is a run that stops so. -/
def Task.convergesAtStart : Task → Bool
  | .showHelp => false
  | .solve r => r.convergesAtStart

theorem Request.answersTrue_of_convergesAtStart (r : Request) (h : r.convergesAtStart = true) :
    ∃ y solver, r.start? = .ok y ∧ Solver.ofSettings r.settings = .ok solver ∧
      r.AnswersTrue solver y := by
  unfold convergesAtStart at h
  split at h
  · rename_i y solver hstart hsolver
    obtain ⟨hwide, hconverges⟩ := Bool.and_eq_true_iff.1 h
    obtain ⟨s, hrun, hconverged⟩ := Newton.exists_run_of_runFor (of_decide_eq_true hconverges)
    refine ⟨y, solver, hstart, hsolver, ?_⟩
    rw [AnswersTrue, if_pos hwide]
    exact (answersTrue_iff Problem.system_standard_binary64).2 ⟨s, hrun, hconverged⟩
  · cases h

/-- What a caller writes for each clamping of the command. -/
def Clamping.policies : List (Clamping × Setting) :=
  [(.all, .text "nonnegative"), (.kkt, .tuple (Kkt.inequalityTags.map .int)), (.none, .text "none")]

theorem Clamping.policy_mem_policies (c : Clamping) : (c, c.policy) ∈ policies := by
  cases c <;> simp [policies, policy, nonnegative, unclamped]

theorem Clamping.eq_policy_of_mem {c : Clamping} {projection : Setting}
    (h : (c, projection) ∈ policies) : projection = c.policy := by
  have hcases : (c = .all ∧ projection = .text "nonnegative") ∨
      (c = .kkt ∧ projection = .tuple (Kkt.inequalityTags.map .int)) ∨
      (c = .none ∧ projection = .text "none") := by
    simpa [policies] using h
  obtain ⟨rfl, rfl⟩ | ⟨rfl, rfl⟩ | ⟨rfl, rfl⟩ := hcases <;> rfl

end Command

end Stationary
