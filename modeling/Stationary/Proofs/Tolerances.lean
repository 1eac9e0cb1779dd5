import Stationary.Proofs.Conversions
import Stationary.Proofs.LoopHeads

/-!
# Looser tolerances

Tolerances decide when a run stops, and nothing else : the start and the steps are the same for
all of them (`Newton.init_withTolerances`, `Newton.step_withTolerances`). So two runs that differ
in their tolerances only go the same way as long as both go on. If every norm below the
threshold of the one is below that of the other too (`Newton.Looser`), the other one stops first :
it visits no place that the first one does not (`Newton.Looser.visits`), and where it leaves the
way of the first one it has converged (`Newton.Looser.visits_or_converged`).

Thresholds are sums and products of numbers that are not negative. In rounded arithmetic these
grow with their arguments, so tolerances that are not below others are looser, unless the relative
one becomes infinite in the arithmetic (`Solver.Looser.newton`).
-/

set_option linter.unusedSectionVars false

namespace Stationary

variable {α : Type} {n : Nat}

theorem Flags.converged_of_raised {f : Flags} (h : f.raised = false) : f.converged = false := by
  simp only [raised, Bool.or_eq_false_iff] at h
  exact h.1.1

namespace Newton

/-- The iteration with other tolerances, of which one may be an array with axes. -/
def withTolerances (newton : Newton α) (atol rtol : α) (hasAxes : Bool) : Newton α :=
  { newton with atol := atol, rtol := rtol, thresholdHasAxes := hasAxes }

variable [Scalar α] {newton : Newton α} {atol rtol : α} {hasAxes : Bool} {system : System α n}
  {y₀ y : Vector α n} {s : State α n} {k : Nat}

theorem init_withTolerances :
    (newton.withTolerances atol rtol hasAxes).init system y = newton.init system y :=
  rfl

/-- Without the first flag, tolerances make no difference to the flags. -/
theorem status_withTolerances (h : (newton.status s).converged = false)
    (h' : ((newton.withTolerances atol rtol hasAxes).status s).converged = false) :
    (newton.withTolerances atol rtol hasAxes).status s = newton.status s := by
  have hsplit : ∀ newton : Newton α, newton.status s =
      ⟨(newton.status s).converged, s.stepFailed, !Vec.allFinite s.residual⟩ := fun _ => rfl
  rw [hsplit, hsplit newton, h, h']

/-- The norms of residuals that are below the threshold are below that with the other tolerances
too. -/
def Looser (newton : Newton α) (atol rtol : α) (n : Nat) : Prop :=
  ∀ (norm : α) (f₀ : Vector α n), Scalar.lt norm (newton.threshold (Vec.norm f₀)) = true →
    Scalar.lt norm (atol + rtol * Vec.norm f₀) = true

/-- The first of two solutions is one after no more steps than the second one, as far as the counter
shows. -/
structure TakesNoMore (newton : Newton α) (solution' solution : Solution α n) : Prop where
  counts : ∃ K' K, K' ≤ K ∧ solution'.steps = newton.machine.counted K' ∧
    solution.steps = newton.machine.counted K
  steps_le : newton.machine.Counts newton.maxSteps → solution'.steps ≤ solution.steps

variable [Decomposes α]

theorem TakesNoMore.of_visits {solution' solution : Solution α n} {j : Nat}
    (hvisit : Visits newton system y₀ k y s) (hsteps' : solution'.steps = newton.machine.counted j)
    (hsteps : solution.steps = newton.machine.counted k) (hj : j ≤ k) :
    newton.TakesNoMore solution' solution where
  counts := ⟨j, k, hj, hsteps', hsteps⟩
  steps_le hc := by
    rw [hsteps', hsteps, hvisit.counted_eq hc]
    exact Int.le_trans (Machine.counted_le_self j) (Int.ofNat_le.2 hj)

theorem step_withTolerances :
    (newton.withTolerances atol rtol hasAxes).step system y s = newton.step system y s :=
  rfl

namespace Looser

variable (h : newton.Looser atol rtol n)

include h

/-- Where a run has converged it has converged with looser tolerances too. -/
theorem converged (hvisit : Visits newton system y₀ k y s)
    (hconverged : (newton.status s).converged = true) :
    ((newton.withTolerances atol rtol hasAxes).status s).converged = true := by
  obtain ⟨f₀, -, hinit⟩ := (tracks_walk hvisit.walk).initialNorm
  have hlt : Scalar.lt s.norm (newton.threshold s.initialNorm) = true := hconverged
  show Scalar.lt s.norm (atol + rtol * s.initialNorm) = true
  rw [hinit] at hlt ⊢
  exact h _ f₀ hlt

theorem not_converged (hvisit : Visits newton system y₀ k y s)
    (hnot : ((newton.withTolerances atol rtol hasAxes).status s).converged = false) :
    (newton.status s).converged = false := by
  rw [Bool.eq_false_iff]
  intro hconverged
  rw [h.converged hvisit hconverged] at hnot
  cases hnot

/-- The places that the looser run visits are visited by the tighter one. -/
theorem visits (hvisit : Visits (newton.withTolerances atol rtol hasAxes) system y₀ k y s) :
    Visits newton system y₀ k y s := by
  induction hvisit with
  | start h₀ ht => exact .start h₀ ht
  | @step k y y' s s' _ hk hraised hstep ih =>
    have hlooser := Flags.converged_of_raised hraised
    refine .step ih hk ?_ hstep
    rw [← status_withTolerances (h.not_converged ih hlooser) hlooser]
    exact hraised

/-- A place of the tighter run is visited by the looser one, unless that has converged before. -/
theorem visits_or_converged (hasAxes : Bool) (hvisit : Visits newton system y₀ k y s) :
    Visits (newton.withTolerances atol rtol hasAxes) system y₀ k y s ∨
      ∃ j z t, j < k ∧ Visits (newton.withTolerances atol rtol hasAxes) system y₀ j z t ∧
        ((newton.withTolerances atol rtol hasAxes).status t).converged = true := by
  induction hvisit with
  | start h₀ ht => exact Or.inl (.start h₀ ht)
  | @step k y y' s s' hvisit hk hraised hstep ih =>
    rcases ih with ih | ⟨j, z, t, hj, hvisit', hconverged⟩
    · cases hconverged : ((newton.withTolerances atol rtol hasAxes).status s).converged with
      | true => exact Or.inr ⟨k, y, s, Nat.lt_succ_self k, ih, hconverged⟩
      | false =>
        refine Or.inl (.step ih hk ?_ hstep)
        rw [status_withTolerances (Flags.converged_of_raised hraised) hconverged]
        exact hraised
    · exact Or.inr ⟨j, z, t, by omega, hvisit', hconverged⟩

/-- If a run has a solution then so has the looser one, after no more steps. It converges if the
tighter one does, and has the same solution if it does not converge. -/
theorem value_run_of_ok {solution : Solution α n}
    (hrun : (newton.run system y₀).value = .ok solution) :
    ∃ solution', ((newton.withTolerances atol rtol hasAxes).run system y₀).value = .ok solution' ∧
      newton.TakesNoMore solution' solution ∧
      (solution.outcome = .success → solution'.outcome = .success) ∧
      (solution'.outcome ≠ .success → solution' = solution) := by
  obtain ⟨k, s, hvisit, hending, hlast⟩ := exists_visits_of_run hrun
  have hsteps := hvisit.steps_of_ending hending
  rcases h.visits_or_converged hasAxes hvisit with hvisit' | ⟨j, z, t, hj, hvisit', hconverged⟩
  · cases hconverged : ((newton.withTolerances atol rtol hasAxes).status s).converged with
    | true =>
      obtain ⟨solution', hrun', hsuccess, hsteps', -⟩ :=
        hvisit'.value_run_of_converged hconverged
      exact ⟨solution', hrun', .of_visits hvisit hsteps' hsteps le_rfl, fun _ => hsuccess,
        fun hnot => absurd hsuccess hnot⟩
    | false =>
      have hstatus := status_withTolerances (h.not_converged hvisit hconverged) hconverged
      have hsame :
          (newton.withTolerances atol rtol hasAxes).ending solution.value s = solution := by
        rw [← hending]
        unfold ending
        rw [hstatus]
      have hrun' := hvisit'.value_run_of_last (by rw [hstatus]; exact hlast)
      rw [hsame] at hrun'
      exact ⟨solution, hrun', .of_visits hvisit hsteps hsteps le_rfl, id, fun _ => rfl⟩
  · obtain ⟨solution', hrun', hsuccess, hsteps', -⟩ := hvisit'.value_run_of_converged hconverged
    exact ⟨solution', hrun', .of_visits hvisit hsteps' hsteps hj.le, fun _ => hsuccess,
      fun hnot => absurd hsuccess hnot⟩

/-- If a run goes on for ever then so does the looser one, unless it converges. -/
theorem goesOn (hon : newton.GoesOn system y₀) :
    (newton.withTolerances atol rtol hasAxes).GoesOn system y₀ ∨
      ∃ solution', ((newton.withTolerances atol rtol hasAxes).run system y₀).value =
        .ok solution' ∧ solution'.outcome = .success := by
  by_cases hends : ∃ j z t, Visits (newton.withTolerances atol rtol hasAxes) system y₀ j z t ∧
      ((newton.withTolerances atol rtol hasAxes).status t).converged = true
  · obtain ⟨j, z, t, hvisit', hconverged⟩ := hends
    obtain ⟨solution', hrun', hsuccess, -⟩ := hvisit'.value_run_of_converged hconverged
    exact Or.inr ⟨solution', hrun', hsuccess⟩
  · refine Or.inl fun k => ?_
    obtain ⟨y, s, hvisit, hk, hraised⟩ := hon k
    rcases h.visits_or_converged hasAxes hvisit with
      hvisit' | ⟨j, z, t, -, hvisit', hconverged⟩
    · have hnot : ((newton.withTolerances atol rtol hasAxes).status s).converged = false := by
        rw [Bool.eq_false_iff]
        exact fun hconverged => hends ⟨k, y, s, hvisit', hconverged⟩
      refine ⟨y, s, hvisit', hk, ?_⟩
      rw [status_withTolerances (Flags.converged_of_raised hraised) hnot]
      exact hraised
    · exact absurd ⟨j, z, t, hvisit', hconverged⟩ hends

/-- If a run fails then the looser one fails in the same way, unless it converges before. -/
theorem value_run_of_error {e : Failure} (hrun : (newton.run system y₀).value = .error e) :
    ((newton.withTolerances atol rtol hasAxes).run system y₀).value = .error e ∨
      ∃ solution', ((newton.withTolerances atol rtol hasAxes).run system y₀).value =
        .ok solution' ∧ solution'.outcome = .success := by
  rcases value_run_eq_error_iff.1 hrun with
    h₀ | ⟨h₀, ht⟩ | ⟨k, y, s, hvisit, hk, hraised, he⟩ | ⟨hon, rfl⟩
  · exact Or.inl (value_run_eq_error_iff.2 (Or.inl h₀))
  · exact Or.inl (value_run_eq_error_iff.2 (Or.inr (Or.inl ⟨h₀, ht⟩)))
  · rcases h.visits_or_converged hasAxes hvisit with
      hvisit' | ⟨j, z, t, -, hvisit', hconverged⟩
    · cases hconverged : ((newton.withTolerances atol rtol hasAxes).status s).converged with
      | true =>
        obtain ⟨solution', hrun', hsuccess, -⟩ := hvisit'.value_run_of_converged hconverged
        exact Or.inr ⟨solution', hrun', hsuccess⟩
      | false =>
        refine Or.inl (hvisit'.value_run_of_error hk ?_ he)
        rw [status_withTolerances (Flags.converged_of_raised hraised) hconverged]
        exact hraised
    · obtain ⟨solution', hrun', hsuccess, -⟩ := hvisit'.value_run_of_converged hconverged
      exact Or.inr ⟨solution', hrun', hsuccess⟩
  · exact (h.goesOn hon).imp_left value_run_of_goesOn

end Looser

end Newton

/-! ## Accepted configurations -/

namespace Literal

open RoundedArithmetic

/-- Both literals are real numbers, the first one is not negative, and the second one is not below
it. -/
def AtOrBelow (l l' : Literal) : Prop :=
  ∃ a b : ℝ, l.value = some (a : EReal) ∧ l'.value = some (b : EReal) ∧ 0 ≤ a ∧ a ≤ b

theorem atOrBelow_whole_iff {i j : ℤ} : AtOrBelow (.whole i) (.whole j) ↔ 0 ≤ i ∧ i ≤ j := by
  constructor
  · rintro ⟨a, b, ha, hb, h⟩
    obtain rfl : (i : ℝ) = a := EReal.coe_eq_coe_iff.1 (Option.some.inj ha)
    obtain rfl : (j : ℝ) = b := EReal.coe_eq_coe_iff.1 (Option.some.inj hb)
    exact_mod_cast h
  · rintro ⟨hi, hij⟩
    exact ⟨i, j, rfl, rfl, by exact_mod_cast hi, by exact_mod_cast hij⟩

/-- For binary64 numbers it is their own order, if the second one is finite. -/
theorem atOrBelow_float_iff {x y : Float} : AtOrBelow (.float x) (.float y) ↔
    Scalar.le 0 x = true ∧ Scalar.le x y = true ∧ Scalar.isFinite y = true := by
  rw [le_iff, le_iff, isFinite_iff]
  constructor
  · rintro ⟨a, b, ha, hb, ha₀, hab⟩
    exact ⟨⟨0, a, value_zero, ha, EReal.coe_nonneg.2 ha₀⟩,
      ⟨a, b, ha, hb, EReal.coe_le_coe_iff.2 hab⟩, b, hb⟩
  · rintro ⟨⟨z, a, hz, ha, hza⟩, ⟨a', b, ha', hb, hab⟩, b', hb'⟩
    obtain rfl := Option.some.inj (hz.symm.trans value_zero)
    obtain rfl := Option.some.inj (ha.symm.trans ha')
    obtain rfl := Option.some.inj (hb.symm.trans hb')
    lift a to ℝ using ⟨(hab.trans_lt (EReal.coe_lt_top b')).ne,
      (EReal.bot_lt_zero.trans_le hza).ne'⟩
    exact ⟨a, b', ha, hb', EReal.coe_nonneg.1 hza, EReal.coe_le_coe_iff.1 hab⟩

end Literal

namespace Solver

open RoundedArithmetic

/-- The solver with other tolerances. -/
def withTolerances (solver : Solver) (atol rtol : Setting) : Solver :=
  { solver with atol := atol, rtol := rtol }

/-- The second solver differs from the first one in its tolerances only, which are not below those
of the first one. Integers among them fit where integers of the machine do. -/
structure Looser (tight loose : Solver) : Prop where
  same : loose = tight.withTolerances loose.atol loose.rtol
  atol : tight.atol.literal.AtOrBelow loose.atol.literal
  rtol : tight.rtol.literal.AtOrBelow loose.rtol.literal
  tightFits : tight.TolerancesFit
  looseFits : loose.TolerancesFit

variable [Elementary α] [RoundedArithmetic α] [RoundedConversions α] {tight loose : Solver}

theorem Looser.newton_eq (h : Looser tight loose) : loose.newton α =
    (tight.newton α).withTolerances loose.atol.literal.embed loose.rtol.literal.embed
      (loose.newton α).thresholdHasAxes := by
  have hfits : (tight.newton α).checkTolerances = (loose.newton α).checkTolerances := by
    rw [checkTolerances_newton h.tightFits, checkTolerances_newton h.looseFits]
  unfold Newton.withTolerances
  rw [hfits, h.same]
  rfl

/-- Tolerances that are not below others are looser, as long as the relative one is finite. -/
theorem Looser.newton (h : Looser tight loose)
    (hfin : Scalar.isFinite (loose.rtol.literal.embed : α) = true) (n : Nat) :
    (tight.newton α).Looser loose.atol.literal.embed loose.rtol.literal.embed n := by
  obtain ⟨a, a', hva, hva', ha₀, haa⟩ := h.atol
  obtain ⟨r, r', hvr, hvr', hr₀, hrr⟩ := h.rtol
  have hatol : Dominated (tight.atol.literal.embed : α) loose.atol.literal.embed :=
    Literal.dominated_embed hva hva' (EReal.coe_le_coe_iff.2 haa)
  have hrtol : Dominated (tight.rtol.literal.embed : α) loose.rtol.literal.embed :=
    Literal.dominated_embed hvr hvr' (EReal.coe_le_coe_iff.2 hrr)
  have hatol₀ : AtLeast 0 (tight.atol.literal.embed : α) :=
    Literal.nonneg_embed hva (EReal.coe_nonneg.2 ha₀)
  have hrtol₀ : AtLeast 0 (tight.rtol.literal.embed : α) :=
    Literal.nonneg_embed hvr (EReal.coe_nonneg.2 hr₀)
  intro norm f₀ hlt
  have hproduct := hrtol.mul hrtol₀ hfin (nonneg_norm f₀)
  exact lt_of_dominated (hatol.add hproduct hatol₀ (nonneg_mul hrtol₀ (nonneg_norm f₀))) hlt

variable [Decomposes α]

/-- With looser tolerances, of which the relative one is finite in the arithmetic, a run only visits
places that the tighter run visits. It takes no more steps, converges if the tighter run does, and
has the same solution if it does not converge itself. Where the tighter run fails, or has no end,
it does so in the same way or converges before. -/
theorem looser_run_stops_first (h : Looser tight loose)
    (hfin : Scalar.isFinite (loose.rtol.literal.embed : α) = true) (system : System α n)
    (y₀ : Vector α n) :
    (∀ k y s, Newton.Visits (loose.newton α) system y₀ k y s →
      Newton.Visits (tight.newton α) system y₀ k y s) ∧
    (∀ solution, ((tight.newton α).run system y₀).value = .ok solution →
      ∃ solution', ((loose.newton α).run system y₀).value = .ok solution' ∧
        (∃ K' K, K' ≤ K ∧ solution'.steps = tight.machine.counted K' ∧
          solution.steps = tight.machine.counted K) ∧
        (tight.machine.Counts tight.maxSteps → solution'.steps ≤ solution.steps) ∧
        (solution.outcome = .success → solution'.outcome = .success) ∧
        (solution'.outcome ≠ .success → solution' = solution)) ∧
    ∀ e, ((tight.newton α).run system y₀).value = .error e →
      ((loose.newton α).run system y₀).value = .error e ∨
        ∃ solution', ((loose.newton α).run system y₀).value = .ok solution' ∧
          solution'.outcome = .success := by
  have hlooser := h.newton hfin n
  rw [h.newton_eq (α := α)]
  refine ⟨fun k y s hvisit => hlooser.visits hvisit, fun solution hrun => ?_,
    fun e hrun => hlooser.value_run_of_error hrun⟩
  obtain ⟨solution', hrun', hsteps, houtcome⟩ := hlooser.value_run_of_ok hrun
  exact ⟨solution', hrun', hsteps.counts, hsteps.steps_le, houtcome⟩

theorem looser_standard : Looser standard (standard.withTolerances (.float 4.0) (.float 0.5)) where
  same := rfl
  atol := Literal.atOrBelow_float_iff.2 (by decide +kernel)
  rtol := Literal.atOrBelow_float_iff.2 (by decide +kernel)
  tightFits := tolerancesFit_standard
  looseFits := ⟨rfl, rfl⟩

/-- From three the unit equation takes a step with the default tolerances, and none with looser
ones. -/
theorem looser_run_of_unitEquation :
    ∃ solution solution', ((standard.newton Binary64).run unitEquation #v[⟨3⟩]).value =
        .ok solution ∧
      (((standard.withTolerances (.float 4.0) (.float 0.5)).newton Binary64).run unitEquation
        #v[⟨3⟩]).value = .ok solution' ∧
      solution'.steps ≤ solution.steps ∧ solution'.outcome = .success := by
  obtain ⟨-, hok, -⟩ := looser_run_stops_first looser_standard (by decide +kernel) unitEquation
    #v[(⟨3⟩ : Binary64)]
  have heval : ((standard.newton Binary64).runFor unitEquation 2
      #v[⟨3⟩]).map (·.toOption.map Solution.outcome) = some (some .success) := by decide +kernel
  obtain ⟨solution, hrun, hsuccess⟩ := Newton.exists_run_of_runFor heval
  obtain ⟨solution', hrun', -, hsteps, houtcome, -⟩ := hok solution hrun
  exact ⟨solution, solution', hrun, hrun', hsteps counts_standard, houtcome hsuccess⟩

/-- A run that has not converged at its start, and whose steps lead back to it, uses up its budget
if the counter can reach it. -/
theorem exists_exhausted_run {newton : Newton α} {system : System α n} {y f : Vector α n}
    {mask : Vector Bool n} {A : SquareMatrix α n} {d : LinearStep α n}
    (h₀ : (newton.init system y).value = .ok (.initial f)) (ht : newton.checkTolerances = .ok ())
    (hm : maskFor newton.machine newton.projection n = .ok mask)
    (hf : system.residualVector y = .ok f) (hA : system.jacobianMatrix y = .ok A)
    (hd : newton.linearStep A (Vec.neg f) = .ok d) (hstay : Newton.advance mask y d = y)
    (hu : d.usable = true) (hraised : (newton.status (.initial f)).raised = false)
    (hc : newton.machine.Counts newton.maxSteps) :
    ∃ solution, (newton.run system y).value = .ok solution ∧ solution.outcome = .maxIterations := by
  have hwalk : ∀ k, newton.walk system y k =
      .ok (y, { State.initial f with steps := newton.machine.counted k }) := by
    intro k
    induction k with
    | zero =>
      rw [Machine.counted_zero]
      exact Newton.walk_zero_eq_ok_iff.2 ⟨rfl, h₀⟩
    | succ k ih =>
      have hafter : ({ State.initial f with steps := newton.machine.counted k } :
          State α n).after newton.machine d f =
            { State.initial f with steps := newton.machine.counted (k + 1) } := by
        simp [State.after, State.initial, hu, Machine.next_counted]
      exact Newton.walk_succ_eq_ok_iff.2 ⟨y, _, ih, Newton.value_step_eq_ok_iff.2
        ⟨mask, A, d, f, hm, hA, hd, hstay.symm, hf, hafter.symm⟩⟩
  have hstill : ∀ i, (newton.status { State.initial f with steps := i }).raised = false :=
    fun _ => hraised
  obtain ⟨K, -, -, ⟨z, s, hlast, -, hrun⟩ | ⟨e, he, -⟩⟩ := Newton.run_stops_of_counts hc h₀ ht
  · obtain ⟨rfl, rfl⟩ := Prod.mk.inj (Except.ok.inj (hlast.symm.trans (hwalk K)))
    refine ⟨_, hrun, ?_⟩
    unfold Newton.ending
    rw [Flags.outcome?_eq_none_iff.2 (hstill _)]
    rfl
  · rw [hwalk K] at he
    cases he

/-- From its root the narrow unit equation steps back to the root, but with an infinite relative
tolerance it has not converged there. -/
theorem exists_exhausted_narrowUnitEquation : ∃ solution,
    (((standard.withTolerances (.float 1e-6) (.float 1e300)).newton Binary32).run
      narrowUnitEquation #v[⟨1⟩]).value = .ok solution ∧ solution.outcome = .maxIterations := by
  have hf : narrowUnitEquation.residualVector #v[⟨1⟩] = .ok #v[(⟨1⟩ : Binary32) - 1] := by
    rw [narrowUnitEquation, System.residualVector_ofMaps]
    rfl
  have hA : narrowUnitEquation.jacobianMatrix #v[⟨1⟩] = .ok #v[#v[(1 : Binary32)]] := by
    rw [narrowUnitEquation, System.jacobianMatrix_ofMaps]
  have hmask : maskFor {} standard.projection 1 = .ok #v[true] := rfl
  have h₀ : (((standard.withTolerances (.float 1e-6) (.float 1e300)).newton Binary32).init
      narrowUnitEquation #v[⟨1⟩]).value = .ok (.initial #v[(⟨1⟩ : Binary32) - 1]) :=
    Newton.value_init_eq_ok_iff.2 ⟨Nat.one_ne_zero, _, hf, rfl, ⟨_, hmask⟩, rfl⟩
  exact exists_exhausted_run h₀ rfl hmask hf hA rfl (by decide +kernel) (by decide +kernel)
    (by decide +kernel) counts_standard

/-- The solver of the settings that are not given, where integers have 32 bits. -/
def narrow : Solver :=
  { standard with machine := { wide := false } }

/-- Three pairs of looser tolerances with which a run from a root does not converge, where the
tighter run does. An integer of more than 64 bits cannot be compared with, nor one of more than
32 bits where integers have no more, and a relative tolerance that is infinite in binary32 has
no multiple of zero. -/
theorem looser_run_fails :
    ((Literal.whole 1).AtOrBelow (.whole 10000000000000000000) ∧
      (∃ solution, (((standard.withTolerances (.int 1) (.float 0.0)).newton Binary64).run
        unitEquation #v[⟨1⟩]).value = .ok solution ∧ solution.outcome = .success) ∧
      (((standard.withTolerances (.int 10000000000000000000) (.float 0.0)).newton Binary64).run
        unitEquation #v[⟨1⟩]).value = .error .toleranceTooLarge) ∧
    ((Literal.whole 1).AtOrBelow (.whole 2147483648) ∧
      (∃ solution, (((narrow.withTolerances (.int 1) (.float 0.0)).newton Binary32).run
        narrowUnitEquation #v[⟨1⟩]).value = .ok solution ∧ solution.outcome = .success) ∧
      (((narrow.withTolerances (.int 2147483648) (.float 0.0)).newton Binary32).run
        narrowUnitEquation #v[⟨1⟩]).value = .error .toleranceTooLarge) ∧
    (Literal.float 0.0).AtOrBelow (.float 1e300) ∧
    (∃ solution, ((standard.newton Binary32).run narrowUnitEquation #v[⟨1⟩]).value =
      .ok solution ∧ solution.outcome = .success) ∧
    ∃ solution, (((standard.withTolerances (.float 1e-6) (.float 1e300)).newton Binary32).run
      narrowUnitEquation #v[⟨1⟩]).value = .ok solution ∧ solution.outcome = .maxIterations := by
  have hwide : (((standard.withTolerances (.int 1) (.float 0.0)).newton Binary64).runFor
      unitEquation 1 #v[⟨1⟩]).map (·.toOption.map Solution.outcome) = some (some .success) := by
    decide +kernel
  have hnarrow : (((narrow.withTolerances (.int 1) (.float 0.0)).newton Binary32).runFor
      narrowUnitEquation 1 #v[⟨1⟩]).map (·.toOption.map Solution.outcome) =
        some (some .success) := by decide +kernel
  have hstandard : ((standard.newton Binary32).runFor narrowUnitEquation 1 #v[⟨1⟩]).map
      (·.toOption.map Solution.outcome) = some (some .success) := by decide +kernel
  have hlarge : ((standard.withTolerances (.int 10000000000000000000) (.float 0.0)).newton
      Binary64).runFor unitEquation 1 #v[⟨1⟩] = some (.error .toleranceTooLarge) := rfl
  have hlarger : ((narrow.withTolerances (.int 2147483648) (.float 0.0)).newton
      Binary32).runFor narrowUnitEquation 1 #v[⟨1⟩] = some (.error .toleranceTooLarge) := rfl
  exact ⟨⟨Literal.atOrBelow_whole_iff.2 (by decide), Newton.exists_run_of_runFor hwide,
      Newton.value_run_of_runFor hlarge⟩,
    ⟨Literal.atOrBelow_whole_iff.2 (by decide), Newton.exists_run_of_runFor hnarrow,
      Newton.value_run_of_runFor hlarger⟩,
    Literal.atOrBelow_float_iff.2 (by decide +kernel), Newton.exists_run_of_runFor hstandard,
    exists_exhausted_narrowUnitEquation⟩

end Solver

end Stationary
