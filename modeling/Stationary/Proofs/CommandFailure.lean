import Mathlib
import Stationary.Command
import Stationary.Proofs.Infeasibility
import Stationary.Proofs.PivotSettings
import Stationary.Proofs.RoundingErrors

/-!
# Commands without a solution

The command solves the reference problem with capacity four, so exactly computed residuals have a
norm of at least `4 / √3`, which is above `2.309`. In a rounded arithmetic that keeps short
numbers the computed norm is still above `2.301` (`Kkt.atLeast_norm_standard`) : where a
component of the point is large its square alone is enough, and otherwise every rounding is small.

So no run of the command with a tolerance of at most `2.3` converges, in either format
(`Command.exitCode_runIn`). A tolerance that comes from arguments is not negative, so the settings
are accepted and the command ends with exit code 1.
-/

set_option linter.unusedSectionVars false

namespace Stationary

open RoundedArithmetic WithUndefined

namespace Kkt

/-! ## The computed norm -/

section Rounded

variable {α : Type} [Elementary α] [RoundedArithmetic α] [RoundedConversions α] [KeepsShort α]

theorem sumSquares_six (a b c d e f : α) : Vec.sumSquares #v[a, b, c, d, e, f] =
    a * a + b * b + c * c + d * d + e * e + f * f := by
  simp [Vec.sumSquares, Vec.dot, Vec.sum]

/-- Bounds of three squares bound the sum of all six. -/
theorem atLeast_sumSquares_six {a b c d e f : α} {p q r : ℝ} (hc : AtLeast (p : EReal) (c * c))
    (hd : AtLeast (q : EReal) (d * d)) (he : AtLeast (r : EReal) (e * e))
    (hsize : |p| + |q| + |r| ≤ 99) :
    AtLeast ((p + q + r - 4 * shortUnit : ℝ) : EReal) (Vec.sumSquares #v[a, b, c, d, e, f]) := by
  have hunit : shortUnit = 1 / 131072 := rfl
  obtain ⟨hp₁, hp₂⟩ := abs_le.1 (le_refl |p|)
  obtain ⟨hq₁, hq₂⟩ := abs_le.1 (le_refl |q|)
  obtain ⟨hr₁, hr₂⟩ := abs_le.1 (le_refl |r|)
  have hp₀ := abs_nonneg p
  have hq₀ := abs_nonneg q
  have hr₀ := abs_nonneg r
  have h₂ : AtLeast ((0 : ℝ) : EReal) (a * a + b * b) := by
    have h := atLeast_add (nonneg_mul_self a) (nonneg_mul_self b)
    rwa [add_zero, roundValue_zero] at h
  have h₃ := atLeast_add_short (r := p - shortUnit) h₂ hc
    (abs_le.2 ⟨by linarith, by linarith⟩) (by linarith)
  have h₄ := atLeast_add_short (r := p + q - 2 * shortUnit) h₃ hd
    (abs_le.2 ⟨by linarith, by linarith⟩) (by linarith)
  have h₅ := atLeast_add_short (r := p + q + r - 3 * shortUnit) h₄ he
    (abs_le.2 ⟨by linarith, by linarith⟩) (by linarith)
  rw [sumSquares_six]
  exact atLeast_add_short h₅ (nonneg_mul_self f) (abs_le.2 ⟨by linarith, by linarith⟩)
    (by linarith)

theorem value_capacity_standard : value (standard : Kkt α).capacity = some ((4 : ℝ) : EReal) := by
  have h := KeepsShort.roundValue_short (α := α) (4 * 131072) (by norm_num)
  have hfour : (((4 * 131072 : ℤ) : ℝ) * shortUnit) = 4 := by
    rw [shortUnit]
    norm_num
  rw [hfour] at h
  exact (RoundedConversions.value_ofNat 4).trans (by rw [Nat.cast_ofNat, h])

/-- The third component is near its exact value if the point is near the origin. -/
theorem exists_value_slack {x₁ x₂ : α} {a b : ℝ} (h₁ : value x₁ = some (a : EReal))
    (h₂ : value x₂ = some (b : EReal)) (ha : |a| < 12 / 5) (hb : |b| < 12 / 5) :
    ∃ t : ℝ, value (x₁ + x₂ - (standard : Kkt α).capacity) = some (t : EReal) ∧
      |t - (a + b - 4)| ≤ 2 * shortUnit := by
  have hunit : shortUnit = 1 / 131072 := rfl
  obtain ⟨ha₁, ha₂⟩ := abs_lt.1 ha
  obtain ⟨hb₁, hb₂⟩ := abs_lt.1 hb
  obtain ⟨s, hs, hnear⟩ := exists_roundValue_near α (a := a + b)
    (abs_le.2 ⟨by linarith, by linarith⟩)
  obtain ⟨hs₁, hs₂⟩ := abs_le.1 hnear
  obtain ⟨t, ht, hnear'⟩ := exists_roundValue_near α (a := s - 4)
    (abs_le.2 ⟨by linarith, by linarith⟩)
  obtain ⟨ht₁, ht₂⟩ := abs_le.1 hnear'
  have hsum : value (x₁ + x₂) = some (s : EReal) := by rw [value_add_coe h₁ h₂, hs]
  refine ⟨t, ?_, abs_le.2 ⟨by linarith, by linarith⟩⟩
  rw [value_sub_coe hsum value_capacity_standard, ht]

/-- The square of a number is near that of a near one. -/
theorem sq_ge_of_near {t d u : ℝ} (hnear : |t - d| ≤ 2 * u) (hd : |d| ≤ 9) :
    d ^ 2 - 36 * u ≤ t ^ 2 := by
  have hproduct : |d * (t - d)| ≤ 9 * (2 * u) := by
    rw [abs_mul]
    exact mul_le_mul hd hnear (abs_nonneg _) (by norm_num)
  have hsplit : t ^ 2 = d ^ 2 + 2 * (d * (t - d)) + (t - d) ^ 2 := by ring
  have hsq := sq_nonneg (t - d)
  linarith [(abs_le.1 hproduct).1]

/-- The square of a number that is as large as `c` is at least that of `c`, up to the unit. -/
theorem atLeast_mul_self_near {x : α} {c : ℝ} (hx : AtLeast ((|c| : ℝ) : EReal) (Scalar.abs x))
    (hc : |c| ≤ 9) : AtLeast ((c ^ 2 - shortUnit : ℝ) : EReal) (x * x) := by
  have hunit : shortUnit = 1 / 131072 := rfl
  have hc₀ := sq_nonneg c
  have hc₁ := sq_le_sq' (abs_le.1 hc).1 (abs_le.1 hc).2
  refine atLeast_mul_self_short hx (abs_nonneg c) (abs_le.2 ⟨by linarith, by linarith⟩) ?_
  rw [sub_add_cancel, ← sq, sq_abs]

/-- Near the origin the three squares are small, and so are the rounding errors. -/
theorem atLeast_sumSquares_of_near {x₁ x₂ r₁ r₂ r₆ : α} {a b : ℝ}
    (h₁ : value x₁ = some (a : EReal)) (h₂ : value x₂ = some (b : EReal)) (ha : |a| < 12 / 5)
    (hb : |b| < 12 / 5) : AtLeast ((5.3 : ℝ) : EReal) (Vec.sumSquares
      #v[r₁, r₂, x₁ + x₂ - (standard : Kkt α).capacity, -x₁, -x₂, r₆]) := by
  have hunit : shortUnit = 1 / 131072 := rfl
  obtain ⟨t, ht, hnear⟩ := exists_value_slack h₁ h₂ ha hb
  obtain ⟨ha₁, ha₂⟩ := abs_lt.1 ha
  obtain ⟨hb₁, hb₂⟩ := abs_lt.1 hb
  obtain ⟨ht₁, ht₂⟩ := abs_le.1 hnear
  have hd : |a + b - 4| ≤ 9 := abs_le.2 ⟨by linarith, by linarith⟩
  have htsize : |t| ≤ 9 := abs_le.2 ⟨by linarith, by linarith⟩
  have h₃ := atLeast_mul_self_near (atLeast_abs_of_value ht) htsize
  have h₄ := atLeast_mul_self_near (atLeast_abs_neg (atLeast_abs_of_value h₁)) (by linarith)
  have h₅ := atLeast_mul_self_near (atLeast_abs_neg (atLeast_abs_of_value h₂)) (by linarith)
  have hasq : a ^ 2 ≤ (12 / 5) ^ 2 := sq_le_sq' (by linarith) (by linarith)
  have hbsq : b ^ 2 ≤ (12 / 5) ^ 2 := sq_le_sq' (by linarith) (by linarith)
  have htsq : t ^ 2 ≤ 9 ^ 2 := sq_le_sq' (abs_le.1 htsize).1 (abs_le.1 htsize).2
  have hsize : ∀ c : ℝ, |c ^ 2 - shortUnit| ≤ c ^ 2 + shortUnit := fun c =>
    abs_le.2 ⟨by linarith [sq_nonneg c], by linarith [shortUnit_pos]⟩
  refine (atLeast_sumSquares_six h₃ h₄ h₅ (by linarith [hsize t, hsize a, hsize b])).mono ?_
  have hexact := sq_le_three_mul a b (4 : ℝ)
  have hslack := sq_ge_of_near hnear hd
  rw [EReal.coe_le_coe_iff]
  norm_num at hexact ⊢
  linarith

/-- Everywhere the computed sum of squares is at least `5.3`. -/
theorem atLeast_sumSquares_standard (y : Vector α 6) :
    AtLeast ((5.3 : ℝ) : EReal) (Vec.sumSquares ((standard : Kkt α).residual y)) := by
  have hunit : shortUnit = 1 / 131072 := rfl
  have hzero : ∀ x : α, AtLeast ((0 : ℝ) : EReal) (x * x) := nonneg_mul_self
  unfold residual
  by_cases h₁ : AtLeast ((12 / 5 : ℝ) : EReal) (Scalar.abs y[0])
  · have hsquare := atLeast_mul_self_short (r := 5.7) (atLeast_abs_neg h₁) (by norm_num)
      (by norm_num [abs_le]) (by rw [hunit]; norm_num)
    refine (atLeast_sumSquares_six (hzero _) hsquare (hzero _) (by norm_num [abs_le])).mono ?_
    rw [EReal.coe_le_coe_iff, hunit]
    norm_num
  by_cases h₂ : AtLeast ((12 / 5 : ℝ) : EReal) (Scalar.abs y[1])
  · have hsquare := atLeast_mul_self_short (r := 5.7) (atLeast_abs_neg h₂) (by norm_num)
      (by norm_num [abs_le]) (by rw [hunit]; norm_num)
    refine (atLeast_sumSquares_six (hzero _) (hzero _) hsquare (by norm_num [abs_le])).mono ?_
    rw [EReal.coe_le_coe_iff, hunit]
    norm_num
  · obtain ⟨a, ha, ha'⟩ := exists_value_of_not_atLeast_abs h₁
    obtain ⟨b, hb, hb'⟩ := exists_value_of_not_atLeast_abs h₂
    exact atLeast_sumSquares_of_near ha hb ha' hb'

/-- Everywhere the computed norm is at least `2.301`. -/
theorem atLeast_norm_standard (y : Vector α 6) :
    AtLeast ((2.301 : ℝ) : EReal) (Vec.norm ((standard : Kkt α).residual y)) := by
  have hunit : shortUnit = 1 / 131072 := rfl
  have hnorm : Vec.norm ((standard : Kkt α).residual y) =
      Scalar.sqrt (Vec.sumSquares ((standard : Kkt α).residual y)) := dif_neg (by decide)
  rw [hnorm]
  refine atLeast_sqrt_short (q := 2.302) ((atLeast_sumSquares_standard y).mono ?_)
    (by norm_num [abs_le]) (by rw [hunit]; norm_num)
  rw [EReal.coe_le_coe_iff]
  norm_num

/-! ## Runs -/

variable {newton : Newton α} {q : EReal}

/-- Without a relative tolerance the threshold is the absolute tolerance, if it has a value. -/
theorem threshold_le (hr : value newton.rtol = some 0)
    (ha : ∀ a, value newton.atol = some a → a ≤ q) (initialNorm : α) :
    ∀ b, value (newton.threshold initialNorm) = some b → b ≤ q := by
  intro b hb
  unfold Newton.threshold at hb
  rw [value_add, Option.map_eq_some_iff] at hb
  obtain ⟨_, hsum, rfl⟩ := hb
  obtain ⟨a, c, hatol, hproduct, -, rfl⟩ := exists_sum hsum
  rw [value_mul, hr, Option.map_eq_some_iff] at hproduct
  obtain ⟨_, hproduct, rfl⟩ := hproduct
  obtain ⟨_, d, hzero, -, -, rfl⟩ := exists_product hproduct
  obtain rfl := Option.some.inj hzero
  rw [zero_mul, roundValue_zero, add_zero, roundValue_of_value hatol]
  exact ha a hatol

variable [Decomposes α]

/-- No run with an absolute tolerance of at most `2.301` converges. -/
theorem standard_never_success (hr : value newton.rtol = some 0)
    (ha : ∀ a, value newton.atol = some a → a ≤ ((2.301 : ℝ) : EReal)) {y₀ : Vector α 6}
    {solution : Solution α 6}
    (hrun : (newton.run (standard : Kkt α).system y₀).value = .ok solution) :
    solution.outcome ≠ .success := by
  obtain ⟨k, s, hvisit, hend, -⟩ := Newton.exists_visits_of_run hrun
  obtain ⟨-, hresidual, hnorm, -⟩ := Newton.tracks_walk hvisit.walk
  rw [system, System.residualVector_ofMaps] at hresidual
  obtain hresidual := Except.ok.inj hresidual
  intro hsuccess
  rw [← hend] at hsuccess
  have hlt : Scalar.lt s.norm (newton.threshold s.initialNorm) = true :=
    Newton.converged_of_outcome_ending hsuccess
  rw [hnorm, ← hresidual, not_lt_of_atLeast (atLeast_norm_standard _) (threshold_le hr ha _)] at hlt
  cases hlt

end Rounded

end Kkt

/-! ## Commands -/

namespace Command

/-- The number that stands for `2.3` is rounded down, so what is at most this number has a value of
at most `2.3`. -/
theorem value_le_of_le {x : Float} (h : x ≤ 2.3) {a : EReal} (ha : value x = some a) :
    a ≤ ((2.3 : ℝ) : EReal) := by
  have hle : Scalar.le x 2.3 = true := decide_eq_true h
  obtain ⟨a', b, ha', hb, hab⟩ := (le_iff x 2.3).1 hle
  obtain rfl := Option.some.inj (ha'.symm.trans ha)
  refine hab.trans ?_
  have hunpack : BinaryFormat.unpack (2.3 : Float) =
      .finite .positive 5179139571476070 (-51) (by decide) := rfl
  rw [RoundedFormat.value_eq, hunpack] at hb
  obtain rfl := Option.some.inj hb
  rw [EReal.coe_le_coe_iff, signed]
  norm_num

theorem value_zero_literal : value (0.0 : Float) = some 0 := by
  have hunpack : BinaryFormat.unpack (0.0 : Float) = .zero .positive := rfl
  rw [RoundedFormat.value_eq, hunpack]
  rfl

/-! ## The solver of a request -/

theorem checkMethod_name (m : LinearMethod) : Solver.checkMethod (.text m.name) = .ok m := by
  cases m <;> rfl

theorem checkBudget_natCast (n : Nat) : Solver.checkBudget (.int n) = .ok n := by
  rw [Solver.checkBudget, if_neg (by omega), Int.toNat_natCast]

theorem checkTolerance_float {name : String} {x : Float} (h : 0 ≤ x) :
    Solver.checkTolerance name (.float x) = .ok (.float x) :=
  if_pos (decide_eq_true h)

theorem exists_storedPolicy (machine : Machine) (c : Clamping) :
    ∃ policy, Solver.storedPolicy machine c.policy = .ok policy := by
  cases c <;> exact ⟨_, rfl⟩

/-- The counter can reach the budget of the request. -/
def Request.Counts (r : Request) : Prop :=
  r.settings.machine.Counts r.budget

instance (r : Request) : Decidable r.Counts :=
  inferInstanceAs (Decidable (r.settings.machine.Counts r.budget))

/-- The solver is that of the request. -/
structure Request.Makes (r : Request) (solver : Solver) : Prop where
  ofSettings : Solver.ofSettings r.settings = .ok solver
  rtol : solver.rtol = .float 0.0
  atol : solver.atol = .float r.tolerance
  maxSteps : solver.maxSteps = r.budget
  machine : solver.machine = r.settings.machine

theorem eq_of_checkTolerance_float {name : String} {x : Float} {kept : Setting}
    (h : Solver.checkTolerance name (.float x) = .ok kept) : kept = .float x := by
  have hsign : (if (Literal.float x).atLeastZero then .ok (.float x)
      else .error (.negativeTolerance name (.float x)) : Except SettingsError Setting) =
        .ok kept := h
  split at hsign
  · exact (Except.ok.inj hsign).symm
  · cases hsign

/-- A solver that the settings of a request are accepted for is that of the request. -/
theorem Request.makes_of_ofSettings {r : Request} {solver : Solver}
    (h : Solver.ofSettings r.settings = .ok solver) : r.Makes solver := by
  obtain ⟨-, hbudget, hatol, hrtol, -, -, -, hmachine⟩ := Solver.ofSettings_eq_ok_iff.1 h
  exact
    { ofSettings := h
      rtol := eq_of_checkTolerance_float hrtol
      atol := eq_of_checkTolerance_float hatol
      maxSteps := Except.ok.inj (hbudget.symm.trans (checkBudget_natCast r.budget))
      machine := hmachine.symm }

/-- The settings of a request are accepted, if its tolerance is not negative. -/
theorem exists_makes (r : Request) (h : 0 ≤ r.tolerance) : ∃ solver, r.Makes solver := by
  have hzero : (0 : Float) ≤ 0.0 := by decide +kernel
  obtain ⟨policy, hpolicy⟩ := exists_storedPolicy r.settings.machine r.clamping
  obtain ⟨solver, hsolver⟩ : ∃ solver, Solver.ofSettings r.settings = .ok solver := by
    unfold Solver.ofSettings
    rw [show r.settings.maxSteps = .int r.budget from rfl, checkBudget_natCast,
      show r.settings.atol = .float r.tolerance from rfl, checkTolerance_float h,
      show r.settings.rtol = .float 0.0 from rfl, checkTolerance_float hzero,
      show r.settings.linearSolver = .text r.method.name from rfl, checkMethod_name,
      show r.settings.projection = r.clamping.policy from rfl, hpolicy]
    exact ⟨_, rfl⟩
  exact ⟨solver, Request.makes_of_ofSettings hsolver⟩

/-! ## The end of a run -/

section Endings

variable {α : Type} [Elementary α] [FloatFormat α] [Decomposes α]

/-- What is not converged ends with exit code 1. -/
theorem exitCode_conclude {s : Solution α 6} (h : s.outcome ≠ .success) :
    (conclude s).exitCode = 1 := by
  have hconverged : s.converged = false := by
    unfold Solution.converged
    exact decide_eq_false h
  rw [conclude, hconverged]
  rfl

/-- A run that fails ends with exit code 1, if it ends. -/
theorem exitCode_of_failure {cause : Failure} {ending : Result}
    (h : conclusion (.error cause : Except Failure (Solution α 6)) = .ok ending) :
    ending.exitCode = 1 := by
  cases cause with
  | endless => cases h
  | _ =>
    obtain rfl := Except.ok.inj h
    rfl

/-- The end of a run is that of its result, with other lines before its errors. -/
theorem exists_runIn_eq (r : Request) (solver : Solver) (y : Vector Float 6) :
    ∃ lines, runIn α r solver y =
      (conclusion ((solver.newton α).run (Kkt.standard : Kkt α).system
        (y.map FloatFormat.ofFloat)).value).map fun ending =>
          { ending with errors := lines ++ ending.errors } := by
  unfold runIn Journaled.value
  dsimp only
  generalize ((solver.newton α).run (Kkt.standard : Kkt α).system
    (y.map FloatFormat.ofFloat)).start = ending
  obtain ⟨result, journal⟩ := ending
  cases conclusion result with
  | error _ => exact ⟨[], rfl⟩
  | ok _ => exact ⟨_, rfl⟩

/-- Every clamping has a mask for the six unknowns. -/
theorem Request.exists_mask {r : Request} {policy : Setting}
    (h : Solver.storedPolicy r.settings.machine r.settings.projection = .ok policy) :
    ∃ mask, maskFor r.settings.machine policy 6 = .ok mask := by
  unfold Request.settings at h ⊢
  cases hc : r.clamping <;>
  · rw [hc] at h
    obtain rfl := Except.ok.inj h
    exact ⟨_, rfl⟩

/-- The solver of a request has a start and a run from every guess, and the run has an end if the
counter can reach the budget. -/
theorem Request.Makes.exists_run {r : Request} {solver : Solver} (h : r.Makes solver)
    (y : Vector α 6) :
    (∃ s₀, ((solver.newton α).init (Kkt.standard : Kkt α).system y).value = .ok s₀) ∧
      ((∃ s, ((solver.newton α).run (Kkt.standard : Kkt α).system y).value = .ok s) ∨
        ¬r.Counts ∧
          ((solver.newton α).run (Kkt.standard : Kkt α).system y).value = .error .endless) := by
  have hmask : ∃ mask, maskFor solver.machine solver.projection 6 = .ok mask := by
    rw [h.machine]
    exact Request.exists_mask (Solver.storedPolicy_of_ofSettings h.ofSettings)
  have hfit : solver.TolerancesFit := by
    unfold Solver.TolerancesFit
    rw [h.rtol, h.atol]
    exact ⟨rfl, rfl⟩
  have hpivots : solver.PivotsUsable :=
    Or.inr (Or.inl (Solver.pivotRtol_of_ofSettings h.ofSettings))
  have hsq : (Kkt.standard : Kkt α).system.IsSquare := System.isSquare_ofMaps _ _
  obtain ⟨f, hf⟩ := hsq.residual y
  have hinit : ((solver.newton α).init (Kkt.standard : Kkt α).system y).value =
      .ok (.initial f) :=
    Newton.value_init_eq_ok_iff.2 ⟨by decide, f, hf, rfl, hmask, rfl⟩
  refine ⟨⟨_, hinit⟩, ?_⟩
  refine (Newton.exists_solution_or_goesOn hsq hinit (Solver.checkTolerances_newton hfit)
    (Solver.checkPivots_newton hpivots)).imp_right ?_
  rintro ⟨hon, hcount⟩
  refine ⟨fun hc => hcount ?_, Newton.value_run_of_goesOn hon⟩
  unfold Request.Counts at hc
  rwa [← h.machine, ← h.maxSteps] at hc

/-- The run of a request ends, unless it goes on for ever. -/
theorem Request.Makes.ends_or_endless {r : Request} {solver : Solver} (h : r.Makes solver)
    (y : Vector Float 6) : (∃ result, runIn α r solver y = .ok result) ∨
      ¬r.Counts ∧ runIn α r solver y = .error .endless := by
  obtain ⟨lines, hlines⟩ := exists_runIn_eq (α := α) r solver y
  rw [hlines]
  obtain ⟨-, ⟨s, hrun⟩ | ⟨hcount, hrun⟩⟩ := h.exists_run (α := α) (y.map FloatFormat.ofFloat)
  · rw [hrun]
    exact Or.inl ⟨_, rfl⟩
  · rw [hrun]
    exact Or.inr ⟨hcount, rfl⟩

end Endings

section Formats

variable {α : Type} [Elementary α] [FloatFormat α] [Decomposes α] [RoundedArithmetic α]
  [RoundedConversions α] [KeepsShort α] {r : Request} {solver : Solver}

/-- A run with a tolerance of at most `2.3` that ends does so with exit code 1. -/
theorem Request.Makes.exitCode_runIn (hsolver : r.Makes solver) (htol : r.tolerance ≤ 2.3)
    {y : Vector Float 6} {result : Result} (h : runIn α r solver y = .ok result) :
    result.exitCode = 1 := by
  have hr : value (solver.newton α).rtol = some 0 := by
    have hembed : (solver.newton α).rtol = Elementary.ofFloat 0.0 := by
      rw [Solver.newton, hsolver.rtol]
      rfl
    rw [hembed, RoundedConversions.value_ofFloat, value_zero_literal, Option.map_some,
      roundValue_zero]
  have ha : ∀ a, value (solver.newton α).atol = some a → a ≤ ((2.301 : ℝ) : EReal) := by
    intro a ha
    have hembed : (solver.newton α).atol = Elementary.ofFloat r.tolerance := by
      rw [Solver.newton, hsolver.atol]
      rfl
    rw [hembed, RoundedConversions.value_ofFloat, Option.map_eq_some_iff] at ha
    obtain ⟨t, ht, rfl⟩ := ha
    have hshort := roundValue_le α (q := 2.301) (a := 2.3) (by norm_num [abs_le])
      (by rw [shortUnit]; norm_num)
    exact (roundValue_mono (value_le_of_le htol ht)).trans hshort
  obtain ⟨lines, hlines⟩ := exists_runIn_eq (α := α) r solver y
  rw [hlines] at h
  obtain ⟨ending, hending, rfl⟩ := Journaled.map_eq_ok_iff.1 h
  show ending.exitCode = 1
  cases hrun : ((solver.newton α).run (Kkt.standard : Kkt α).system
      (y.map FloatFormat.ofFloat)).value with
  | ok s =>
    rw [hrun] at hending
    obtain rfl := Except.ok.inj hending
    exact exitCode_conclude (Kkt.standard_never_success hr ha hrun)
  | error cause =>
    rw [hrun] at hending
    exact exitCode_of_failure hending

/-- A run with a tolerance of at most `2.3` ends with exit code 1, or never. -/
theorem Request.Makes.exitCode_or_endless (h : r.Makes solver) (htol : r.tolerance ≤ 2.3)
    (y : Vector Float 6) :
    (∃ result, runIn α r solver y = .ok result ∧ result.exitCode = 1) ∨
      ¬r.Counts ∧ runIn α r solver y = .error .endless := by
  rcases h.ends_or_endless (α := α) y with ⟨result, hresult⟩ | hendless
  · exact Or.inl ⟨result, hresult, h.exitCode_runIn htol hresult⟩
  · exact Or.inr hendless

end Formats

/-! ## Arguments -/

/-- A tolerance that was read is not negative. -/
theorem not_neg_of_readTolerance {p : Parameter} {text : String} {x : Float}
    (h : readTolerance p text = .ok x) : ¬x < 0 := by
  unfold readTolerance at h
  split at h
  · cases h
  · split at h
    · cases h
    · rename_i hx
      obtain rfl := Except.ok.inj h
      exact hx

theorem not_neg_of_withValue {r s : Request} {p : Parameter} {text : String}
    (hr : ¬r.tolerance < 0) (h : r.withValue p text = .ok s) : ¬s.tolerance < 0 := by
  cases p with
  | tolerance =>
    obtain ⟨x, hx, rfl⟩ := Journaled.map_eq_ok_iff.1 h
    exact not_neg_of_readTolerance hx
  | initialGuess | maxIterations | projection | linearSolver =>
    obtain ⟨x, -, rfl⟩ := Journaled.map_eq_ok_iff.1 h
    exact hr
  | _ =>
    obtain rfl := Except.ok.inj h
    exact hr

theorem not_neg_of_withGiven {r s : Request} {all : List Given} {g : Given}
    (hr : ¬r.tolerance < 0) (h : r.withGiven all g = .ok s) : ¬s.tolerance < 0 := by
  cases g with
  | value p text => exact not_neg_of_withValue hr h
  | decision p answer =>
    obtain rfl := Except.ok.inj h
    split <;> exact hr
  | count p =>
    obtain rfl := Except.ok.inj h
    exact hr

theorem not_neg_of_foldlM {all given : List Given} {r s : Request} (hr : ¬r.tolerance < 0)
    (h : given.foldlM (Request.withGiven all) r = .ok s) : ¬s.tolerance < 0 := by
  induction given generalizing r with
  | nil =>
    obtain rfl := Except.ok.inj h
    exact hr
  | cons g given ih =>
    rw [List.foldlM_cons] at h
    obtain ⟨t, hg, hrest⟩ := Journaled.bind_eq_ok_iff.1 h
    exact ih (not_neg_of_withGiven hr hg) hrest

/-- The tolerance of a request is not negative. -/
theorem not_neg_of_task {arguments : List String} {r : Request}
    (h : task arguments = .ok (.solve r)) : ¬r.tolerance < 0 := by
  unfold task at h
  split at h
  · cases h
  · split at h
    · cases h
    · obtain ⟨s, hfold, hrest⟩ := Journaled.bind_eq_ok_iff.1 h
      split at hrest
      · obtain rfl := Task.solve.inj (Except.ok.inj hrest)
        exact not_neg_of_foldlM (by decide +kernel) hfold
      · cases hrest

/-- What has a value and is not negative is at least zero. -/
theorem nonneg_of_value {x : Float} {a : EReal} (h : ¬x < 0) (ha : value x = some a) : 0 ≤ x := by
  have hnonneg : 0 ≤ a := by
    by_contra hneg
    have hlt : Scalar.lt x 0 = true := (lt_iff x 0).2 ⟨a, 0, ha, value_zero, not_le.1 hneg⟩
    exact h (of_decide_eq_true hlt)
  have hle : Scalar.le 0 x = true := (le_iff 0 x).2 ⟨0, a, value_zero, ha, hnonneg⟩
  exact of_decide_eq_true hle

theorem nonneg_of_le {x : Float} (h : ¬x < 0) (hx : x ≤ 2.3) : 0 ≤ x := by
  have hle : Scalar.le x 2.3 = true := decide_eq_true hx
  obtain ⟨a, -, ha, -, -⟩ := (le_iff x 2.3).1 hle
  exact nonneg_of_value h ha

section Arguments

variable {arguments : List String} {r : Request} {y : Vector Float 6}

/-- A command that reaches the solver ends as its run does, if the settings are accepted. -/
theorem execute_of_start (htask : task arguments = .ok (.solve r)) (hstart : r.start? = .ok y)
    {solver : Solver} (hsolver : Solver.ofSettings r.settings = .ok solver) (width : Nat) :
    execute width arguments =
      if r.wide then runIn Binary64 r solver y else runIn Binary32 r solver y := by
  unfold execute
  rw [htask]
  show fulfil r = _
  unfold fulfil
  rw [hstart, hsolver]
  rfl

/-- A command that solves with a tolerance of at most `2.3` ends with exit code 1, or never if the
counter cannot reach the budget. -/
theorem exitCode_execute (htask : task arguments = .ok (.solve r)) (hstart : r.start? = .ok y)
    (htol : r.tolerance ≤ 2.3) (width : Nat) :
    (∃ result, execute width arguments = .ok result ∧ result.exitCode = 1) ∨
      ¬r.Counts ∧ execute width arguments = .error .endless := by
  obtain ⟨solver, hsolver⟩ := exists_makes r (nonneg_of_le (not_neg_of_task htask) htol)
  rw [execute_of_start htask hstart hsolver.ofSettings]
  cases r.wide with
  | true => exact hsolver.exitCode_or_endless htol y
  | false => exact hsolver.exitCode_or_endless htol y

end Arguments

end Command

/-! ## The problem has no solution -/

namespace Kkt

end Kkt

/-- The iteration over the real numbers with absolute tolerance one and three steps. -/
noncomputable def Newton.overReals (method : LinearMethod) : Newton (WithUndefined ℝ) where
  rtol := 0
  atol := number 1
  maxSteps := 3
  projection := .text nonnegative
  linearMethod := method
  pivotRtol := .standard

namespace Kkt

end Kkt

end Stationary
