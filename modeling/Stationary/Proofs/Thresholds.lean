import Stationary.Proofs.Misfits
import Stationary.Proofs.Tolerances

/-!
# Thresholds

A run that reports success has found a norm strictly below its threshold, which is formed once from
the norm at the start (`Newton.lt_threshold_of_success`). The tolerances of an accepted solver are
not negative (`Solver.nonneg_of_checkTolerance`), so the threshold is finite or positive infinity.
It is finite exactly if the norm at the start is, and if multiple and sum stay within the range
of the arithmetic (`RoundedArithmetic.isFinite_add_mul_iff`).

Nothing looks at the threshold itself. The entries of a residual can all be finite while their
squares, and with them the norm, are too large. Then every finite norm is below the threshold, and
the run stops at the first iterate that has one (`Newton.stops_of_threshold_top`).
-/

set_option linter.unusedSectionVars false

namespace Stationary

open RoundedArithmetic

/-! ## Sums with a multiple -/

namespace RoundedArithmetic

variable {α : Type} [Scalar α] [RoundedArithmetic α] {x y z : α} {a r t : EReal}

/-- A number that is not below zero is finite if it is not infinite. -/
theorem isFinite_iff_ne_top (h : value x = some t) (ht : 0 ≤ t) :
    Scalar.isFinite x = true ↔ t ≠ ⊤ := by
  rw [isFinite_iff, h]
  constructor
  · rintro ⟨s, hs⟩
    obtain rfl := Option.some.inj hs
    exact EReal.coe_ne_top s
  · intro htop
    lift t to ℝ using ⟨htop, (EReal.bot_lt_zero.trans_le ht).ne'⟩
    exact ⟨t, rfl⟩

theorem nonneg_add (hx : AtLeast 0 x) (hy : AtLeast 0 y) : AtLeast 0 (x + y) := by
  have h := atLeast_add hx hy
  rwa [add_zero, roundValue_zero] at h

theorem atLeast_of_value (h : value x = some a) (ha : r ≤ a) : AtLeast r x := by
  intro b hb
  obtain rfl := Option.some.inj (h.symm.trans hb)
  exact ha

/-- A sum with a multiple that has a value is rounded twice, and is not formed with zero times
infinity. -/
theorem exists_value_add_mul (hx : value x = some a) (hy : value y = some r)
    (h : value (x + y * z) = some t) : ∃ m, value z = some m ∧ ¬(r = 0 ∧ m = ⊤) ∧
      t = roundValue α (a + roundValue α (r * m)) := by
  rw [value_add, Option.map_eq_some_iff] at h
  obtain ⟨_, hsum, rfl⟩ := h
  obtain ⟨a', p, ha, hp, -, rfl⟩ := exists_sum hsum
  rw [value_mul, Option.map_eq_some_iff] at hp
  obtain ⟨_, hproduct, rfl⟩ := hp
  obtain ⟨r', m, hr, hm, hzero, rfl⟩ := exists_product hproduct
  obtain rfl := Option.some.inj (hx.symm.trans ha)
  obtain rfl := Option.some.inj (hy.symm.trans hr)
  exact ⟨m, hm, fun hrm => hzero (Or.inl ⟨hrm.1, Or.inl hrm.2⟩), rfl⟩

/-- A sum with a multiple of a number, none of them negative, is finite exactly if the number is
and the rounded results are. -/
theorem isFinite_add_mul_iff (hx : value x = some a) (hy : value y = some r) (ha : 0 ≤ a)
    (hr : 0 ≤ r) (hz : AtLeast 0 z) (h : value (x + y * z) = some t) :
    Scalar.isFinite (x + y * z) = true ↔
      ∃ m : ℝ, value z = some (m : EReal) ∧ roundValue α (a + roundValue α (r * m)) ≠ ⊤ := by
  obtain ⟨m, hm, hzero, rfl⟩ := exists_value_add_mul hx hy h
  have hm₀ : 0 ≤ m := hz m hm
  have hnonneg : 0 ≤ roundValue α (a + roundValue α (r * m)) :=
    roundValue_nonneg (add_nonneg ha (roundValue_nonneg (mul_nonneg hr hm₀)))
  rw [isFinite_iff_ne_top h hnonneg]
  constructor
  · intro hfin
    have htop : m ≠ ⊤ := by
      rintro rfl
      -- infinity keeps its value, so the multiple and the sum are infinite too
      have hround : roundValue α ⊤ = ⊤ := roundValue_of_value hm
      have hpos : 0 < r := hr.lt_of_ne' fun hr₀ => hzero ⟨hr₀, rfl⟩
      have ha' : a ≠ ⊥ := (EReal.bot_lt_zero.trans_le ha).ne'
      rw [EReal.mul_top_of_pos hpos, hround, EReal.add_top_of_ne_bot ha', hround] at hfin
      exact hfin rfl
    lift m to ℝ using ⟨htop, (EReal.bot_lt_zero.trans_le hm₀).ne'⟩
    exact ⟨m, hm, hfin⟩
  · rintro ⟨m', hm', hfin⟩
    obtain rfl := Option.some.inj (hm.symm.trans hm')
    exact hfin

end RoundedArithmetic

/-! ## Runs that report success -/

namespace Newton

variable {α : Type} {n : Nat} [Scalar α] [Decomposes α] {newton : Newton α}
  {system : System α n} {y₀ y : Vector α n} {s : State α n} {f₀ : Vector α n} {k : Nat}
  {solution : Solution α n}

/-- The norm that a run compares with is that of the residual at its start. -/
theorem Visits.initialNorm_eq (h : Visits newton system y₀ k y s)
    (hf₀ : system.residualVector y₀ = .ok f₀) : s.initialNorm = Vec.norm f₀ := by
  obtain ⟨f, hf, hinit⟩ := (tracks_walk h.walk).initialNorm
  obtain rfl := Except.ok.inj (hf₀.symm.trans hf)
  exact hinit

/-- A run that reports success has a norm strictly below the threshold of its start. -/
theorem lt_threshold_of_success (hrun : (newton.run system y₀).value = .ok solution)
    (hsuccess : solution.outcome = .success) : ∃ f f₀ : Vector α n,
      system.residualVector y₀ = .ok f₀ ∧ solution.residualNorm = Vec.norm f ∧
      Scalar.lt solution.residualNorm (newton.threshold (Vec.norm f₀)) = true := by
  obtain ⟨k, s, hvisit, hending, -⟩ := exists_visits_of_run hrun
  obtain ⟨-, -, hnorm, f₀, hf₀, hinit⟩ := tracks_walk hvisit.walk
  rw [← hending] at hsuccess ⊢
  have hlt : Scalar.lt s.norm (newton.threshold s.initialNorm) = true :=
    converged_of_outcome_ending hsuccess
  rw [hinit] at hlt
  exact ⟨s.residual, f₀, hf₀, hnorm, hlt⟩

variable [RoundedArithmetic α]

/-- With an infinite threshold a run stops at the first place whose norm is finite, and reports
it. -/
theorem stops_of_threshold_top (hf₀ : system.residualVector y₀ = .ok f₀)
    (htop : value (newton.threshold (Vec.norm f₀)) = some ⊤)
    (hrun : (newton.run system y₀).value = .ok solution) (hvisit : Visits newton system y₀ k y s)
    (hfin : Scalar.isFinite s.norm = true) :
    solution.value = y ∧ solution.steps = newton.machine.counted k := by
  obtain ⟨m, hm⟩ := (isFinite_iff s.norm).1 hfin
  have hconverged : (newton.status s).converged = true := by
    show Scalar.lt s.norm (newton.threshold s.initialNorm) = true
    rw [hvisit.initialNorm_eq hf₀]
    exact (lt_iff _ _).2 ⟨m, ⊤, hm, htop, EReal.coe_lt_top m⟩
  obtain ⟨solution', hrun', -, hsteps, hvalue⟩ := hvisit.value_run_of_converged hconverged
  obtain rfl := Except.ok.inj (hrun.symm.trans hrun')
  exact ⟨hvalue, hsteps⟩

end Newton

/-! ## Accepted configurations -/

namespace Solver

variable {settings : Settings} {solver : Solver} {a r : ℝ}

/-- A literal at or above zero that is a real number is not negative. -/
theorem nonneg_of_atLeastZero {literal : Literal} (h : literal.atLeastZero = true)
    (ha : literal.value = some (a : EReal)) : 0 ≤ a := by
  cases literal with
  | whole i =>
    obtain rfl : (i : ℝ) = a := EReal.coe_eq_coe_iff.1 (Option.some.inj ha)
    exact_mod_cast of_decide_eq_true h
  | float x =>
    obtain ⟨z, b, hz, hb, hzb⟩ := (le_iff (0 : Float) x).1 h
    obtain rfl := Option.some.inj (hz.symm.trans value_zero)
    obtain rfl := Option.some.inj (hb.symm.trans ha)
    exact EReal.coe_nonneg.1 hzb

theorem checkSign_eq_ok_iff {name : String} {given x tolerance : Setting} :
    checkSign name given x = .ok tolerance ↔
      given = tolerance ∧ ∃ number, x.number? = some number ∧ number.atLeastZero = true := by
  unfold checkSign
  cases x.number? with
  | none => simp
  | some number => cases h : number.atLeastZero <;> simp [h]

/-- The number of an accepted tolerance, be it in an array of its own, is at or above zero. -/
theorem atLeastZero_of_checkTolerance {name : String} {given tolerance : Setting}
    (h : checkTolerance name given = .ok tolerance) : tolerance.literal.atLeastZero = true := by
  unfold checkTolerance at h
  split at h
  · cases h
  · split at h
    · rename_i x _ hleaves
      obtain ⟨rfl, number, hx, hnumber⟩ := checkSign_eq_ok_iff.1 h
      rw [Setting.literal, hleaves]
      simpa [hx] using hnumber
    · cases h
    · cases h
  · rename_i harray
    obtain ⟨rfl, number, hx, hnumber⟩ := checkSign_eq_ok_iff.1 h
    unfold Setting.literal
    split
    · cases hx
    · simpa [hx] using hnumber

/-- An accepted tolerance that is a real number is not negative. -/
theorem nonneg_of_checkTolerance {name : String} {given tolerance : Setting}
    (h : checkTolerance name given = .ok tolerance)
    (ha : tolerance.literal.value = some (a : EReal)) : 0 ≤ a :=
  nonneg_of_atLeastZero (atLeastZero_of_checkTolerance h) ha

/-- The threshold that the tolerances `a` and `r` give for a norm `m` at the start. Both are rounded
as they enter the arithmetic, then the multiple is, and then the sum. -/
noncomputable def roundedThreshold (α : Type) [Scalar α] [RoundedArithmetic α] (a r m : ℝ) :
    EReal :=
  roundValue α (roundValue α a + roundValue α (roundValue α r * m))

variable {α : Type} {n : Nat} [Elementary α] [RoundedArithmetic α] [RoundedConversions α]

/-- The number of an accepted tolerance has the rounded value, which is not negative. -/
theorem value_embed_of_checkTolerance {name : String} {given tolerance : Setting}
    (h : checkTolerance name given = .ok tolerance)
    (ha : tolerance.literal.value = some (a : EReal)) :
    value (tolerance.literal.embed : α) = some (roundValue α a) ∧ 0 ≤ roundValue α a := by
  refine ⟨?_, roundValue_nonneg (EReal.coe_nonneg.2 (nonneg_of_checkTolerance h ha))⟩
  rw [Literal.value_embed, ha, Option.map_some]

/-- If the threshold of an accepted solver with real tolerances has a value, it is finite exactly if
the norm at the start is and its threshold is not rounded to infinity; otherwise it is positive
infinity. -/
theorem isFinite_threshold_iff {x : α} {t : EReal} (hsolver : ofSettings settings = .ok solver)
    (ha : solver.atol.literal.value = some (a : EReal))
    (hr : solver.rtol.literal.value = some (r : EReal)) (hx : AtLeast 0 x)
    (h : value ((solver.newton α).threshold x) = some t) :
    (Scalar.isFinite ((solver.newton α).threshold x) = true ↔
      ∃ m : ℝ, value x = some (m : EReal) ∧ roundedThreshold α a r m ≠ ⊤) ∧
    (Scalar.isFinite ((solver.newton α).threshold x) = false → t = ⊤) := by
  obtain ⟨-, -, hcheck, hcheck', -⟩ := ofSettings_eq_ok_iff.1 hsolver
  obtain ⟨hatol, ha₀⟩ := value_embed_of_checkTolerance (α := α) hcheck ha
  obtain ⟨hrtol, hr₀⟩ := value_embed_of_checkTolerance (α := α) hcheck' hr
  refine ⟨isFinite_add_mul_iff hatol hrtol ha₀ hr₀ hx h, fun hinfinite => ?_⟩
  have hnonneg : AtLeast 0 ((solver.newton α).threshold x) :=
    nonneg_add (atLeast_of_value hatol ha₀) (nonneg_mul (atLeast_of_value hrtol hr₀) hx)
  by_contra htop
  rw [(isFinite_iff_ne_top h (hnonneg t h)).2 htop] at hinfinite
  cases hinfinite

variable [Decomposes α]

/-- A run of an accepted solver with real tolerances that reports success has a finite norm strictly
below the threshold of its start. The threshold is finite exactly if the norm at the start is and
no rounding makes the multiple or the sum infinite. If it is infinite, every finite norm is below
it, and the run has stopped at the first place that it visits with such a norm. -/
theorem threshold_of_success (hsolver : ofSettings settings = .ok solver)
    (ha : solver.atol.literal.value = some (a : EReal))
    (hr : solver.rtol.literal.value = some (r : EReal)) {system : System α n} {y₀ : Vector α n}
    {solution : Solution α n} (hrun : ((solver.newton α).run system y₀).value = .ok solution)
    (hsuccess : solution.outcome = .success) :
    ∃ f₀, system.residualVector y₀ = .ok f₀ ∧
      Scalar.isFinite solution.residualNorm = true ∧
      Scalar.lt solution.residualNorm ((solver.newton α).threshold (Vec.norm f₀)) = true ∧
      (Scalar.isFinite ((solver.newton α).threshold (Vec.norm f₀)) = true ↔
        ∃ m : ℝ, value (Vec.norm f₀) = some (m : EReal) ∧ roundedThreshold α a r m ≠ ⊤) ∧
      (Scalar.isFinite ((solver.newton α).threshold (Vec.norm f₀)) = false →
        ∀ k y s, Newton.Visits (solver.newton α) system y₀ k y s →
          Scalar.isFinite s.norm = true →
            solution.value = y ∧ solution.steps = solver.machine.counted k) := by
  obtain ⟨f, f₀, hf₀, hnorm, hlt⟩ := Newton.lt_threshold_of_success hrun hsuccess
  obtain ⟨b, t, hb, ht, hbt⟩ := (lt_iff _ _).1 hlt
  obtain ⟨hfinite, hinfinite⟩ := isFinite_threshold_iff hsolver ha hr (nonneg_norm f₀) ht
  have hb₀ : 0 ≤ b := nonneg_norm f b (hnorm ▸ hb)
  refine ⟨f₀, hf₀, (isFinite_iff_ne_top hb hb₀).2 hbt.ne_top, hlt, hfinite,
    fun hf k y s hvisit hfin => ?_⟩
  obtain rfl := hinfinite hf
  exact Newton.stops_of_threshold_top hf₀ ht hrun hvisit hfin

/-- With half of the norm at the start as relative tolerance the unit equation is solved from three,
and the threshold, a little above one, is finite. -/
theorem threshold_of_unitEquation : ∃ (a r : ℝ) (solver : Solver) (solution : Solution Binary64 1)
    (f₀ : Vector Binary64 1),
    ofSettings { rtol := .float 0.5 } = .ok solver ∧
    solver.atol.literal.value = some (a : EReal) ∧ solver.rtol.literal.value = some (r : EReal) ∧
    ((solver.newton Binary64).run unitEquation #v[⟨3⟩]).value = .ok solution ∧
    solution.outcome = .success ∧ unitEquation.residualVector #v[⟨3⟩] = .ok f₀ ∧
    Scalar.isFinite ((solver.newton Binary64).threshold (Vec.norm f₀)) = true ∧
    ∃ m : ℝ, value (Vec.norm f₀) = some (m : EReal) ∧ roundedThreshold Binary64 a r m ≠ ⊤ := by
  obtain ⟨a, ha⟩ := (isFinite_iff (1e-6 : Float)).1 (by decide +kernel)
  obtain ⟨r, hr⟩ := (isFinite_iff (0.5 : Float)).1 (by decide +kernel)
  let solver : Solver := { standard with rtol := .float 0.5 }
  have hsolver : ofSettings { rtol := .float 0.5 } = .ok solver := rfl
  have hf : unitEquation.residualVector #v[⟨3⟩] = .ok #v[(⟨3⟩ : Binary64) - 1] := by
    rw [unitEquation, System.residualVector_ofMaps]
    rfl
  have heval : ((solver.newton Binary64).runFor unitEquation 2 #v[⟨3⟩]).map
      (·.toOption.map Solution.outcome) = some (some .success) := by decide +kernel
  obtain ⟨solution, hrun, hsuccess⟩ := Newton.exists_run_of_runFor heval
  obtain ⟨f₀, hf₀, -, -, hfinite, -⟩ := threshold_of_success hsolver ha hr hrun hsuccess
  obtain rfl := Except.ok.inj (hf.symm.trans hf₀)
  have hfin : Scalar.isFinite ((solver.newton Binary64).threshold
      (Vec.norm #v[(⟨3⟩ : Binary64) - 1])) = true := by decide +kernel
  exact ⟨a, r, solver, solution, _, hsolver, ha, hr, hrun, hsuccess, hf₀, hfin, hfinite.1 hfin⟩

end Solver

/-- The system of two equations `y² = 0`. -/
def squares : System Binary64 2 :=
  .ofMaps (fun y => y.map fun x => x * x) fun y =>
    .ofFn fun i => .ofFn fun j => if i = j then y.get i + y.get i else 0

/-- From two entries of `1.2 · 10⁷⁷`, with a relative tolerance of `10⁻⁶`, the residual is finite
but its norm is not, and neither is the threshold. The run reports success after one step, with a
norm above the threshold that even the sum of the magnitudes at the start would give. -/
theorem Solver.finite_threshold_fails : ∃ (solver : Solver) (solution : Solution Binary64 2)
    (f₀ : Vector Binary64 2),
    Solver.ofSettings { rtol := .float 1e-6, maxSteps := .int 1 } = .ok solver ∧
    Scalar.isFinite (solver.newton Binary64).atol = true ∧
    Scalar.isFinite (solver.newton Binary64).rtol = true ∧
    squares.residualVector #v[⟨1.2e77⟩, ⟨1.2e77⟩] = .ok f₀ ∧ Vec.allFinite f₀ = true ∧
    ((solver.newton Binary64).run squares #v[⟨1.2e77⟩, ⟨1.2e77⟩]).value = .ok solution ∧
    solution.outcome = .success ∧
    Scalar.isFinite ((solver.newton Binary64).threshold (Vec.norm f₀)) = false ∧
    Scalar.lt ((solver.newton Binary64).threshold (Vec.sum (f₀.map Scalar.abs)))
      solution.residualNorm = true := by
  let solver : Solver := { Solver.standard with rtol := .float 1e-6, maxSteps := 1 }
  let f₀ : Vector Binary64 2 := #v[⟨1.2e77⟩, ⟨1.2e77⟩].map fun x => x * x
  have hf₀ : squares.residualVector #v[⟨1.2e77⟩, ⟨1.2e77⟩] = .ok f₀ :=
    System.residualVector_ofMaps ..
  have heval : ((solver.newton Binary64).runFor squares 2 #v[⟨1.2e77⟩, ⟨1.2e77⟩]).map
      (·.toOption.map fun solution => (solution.outcome,
        Scalar.lt ((solver.newton Binary64).threshold (Vec.sum (f₀.map Scalar.abs)))
          solution.residualNorm)) =
      some (some (.success, true)) := by decide +kernel
  obtain ⟨solution, hrun, hsolution⟩ := Newton.exists_run_of_runFor heval
  obtain ⟨hsuccess, hlt⟩ := Prod.mk.inj hsolution
  exact ⟨solver, solution, f₀, rfl, by decide +kernel, by decide +kernel, hf₀, by decide +kernel,
    hrun, hsuccess, by decide +kernel, hlt⟩

end Stationary
