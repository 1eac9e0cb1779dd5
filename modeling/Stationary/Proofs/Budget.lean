import Stationary.RootFind
import Stationary.Proofs.Stopping

/-!
# Two drivers

`Newton.run` reads the three flags and stops by them, `Newton.rootFind` knows of them only
the decision of `Newton.terminate`, in which being successful also stands for going on.
With the same budget, which the counter can reach, the two walk together :
`Newton.value_iterate_eq_stepWhile` is the simulation, an induction on the steps that are
left, and `Newton.lastVerdict_eq` says that the outcome that a run reports at its last state
becomes the verdict on this state.

The drivers differ in what they look at in advance. `rootFind` resolves the policy before
the numbers of arrays on a device are known, which no tag may need
(`checkKnownPolicy_eq`), it needs a threshold without axes, and a usable pivot threshold even
where no step is taken. Apart from these the drivers agree (`Newton.value_rootFind_eq_run`).
-/

set_option linter.unusedSectionVars false

namespace Stationary

/-- The verdict that an outcome corresponds to. -/
def Outcome.verdict : Outcome → Verdict
  | success => .successful
  | maxIterations => .maxStepsReached
  | singularJacobian => .singular
  | nonFinite => .nonlinearDivergence

/-- A solution as the result of the other driver. -/
def Solution.root {α : Type} {n : Nat} (s : Solution α n) : Root α n where
  value := s.value
  verdict := s.outcome.verdict
  steps := s.steps
  residualNorm := s.residualNorm

/-! ## Policies before numbers are known -/

/-- The setting is an array on a device. -/
def Setting.isOnDevice : Setting → Bool
  | .array .device _ _ => true
  | _ => false

/-- A tag of the policy is an array on a device. -/
def Setting.hasDeviceTag : Setting → Bool
  | .tuple tags => tags.any isOnDevice
  | _ => false

theorem checkTags_cons (t : Setting) (ts : List Setting) : checkTags (t :: ts) =
    if t.isOnDevice then .error .unknownTag
    else (readTag t).bind fun _ => checkTags ts := by
  cases h : t.isOnDevice with
  | true =>
    unfold Setting.isOnDevice at h
    split at h
    · rfl
    · cases h
  | false =>
    rw [checkTags]
    · cases readTag t <;> rfl
    · rintro entries contents rfl
      cases h

/-- Tags that can all be read are refused only if one of them is on a device. -/
theorem checkTags_eq : ∀ {tags : List Setting} {mask : List Bool}, maskOfTags tags = .ok mask →
    checkTags tags = if tags.any Setting.isOnDevice then .error .unknownTag else .ok ()
  | [], _, _ => rfl
  | t :: ts, mask, h => by
    unfold maskOfTags at h
    cases ht : readTag t with
    | error e => simp [ht] at h
    | ok b =>
      cases hts : maskOfTags ts with
      | error e => simp [ht, hts, Except.map] at h
      | ok rest =>
        rw [checkTags_cons, List.any_cons, ht, checkTags_eq hts]
        cases t.isOnDevice <;> rfl

/-- A policy that has a mask is refused in advance only for a tag on a device. -/
theorem checkKnownPolicy_eq {machine : Machine} {policy : Setting} {n : Nat}
    {mask : Vector Bool n} (h : maskFor machine policy n = .ok mask) :
    checkKnownPolicy machine policy n =
      if policy.hasDeviceTag then .error .unknownTag else .ok () := by
  obtain ⟨m, hm⟩ : ∃ m, projectionMask machine policy n = .ok m := by
    unfold maskFor at h
    split at h
    · exact ⟨_, by assumption⟩
    · cases h
  unfold checkKnownPolicy
  split
  · rename_i tags
    have hm' : maskOfSequence tags n = .ok m := hm
    unfold maskOfSequence at hm'
    split at hm'
    · rename_i hlen
      rw [if_pos hlen]
      exact checkTags_eq hm'
    · cases hm'
  · rename_i hno
    have hdev : policy.hasDeviceTag = false := by
      unfold Setting.hasDeviceTag
      split
      · exact absurd rfl (hno _)
      · rfl
    rw [hm, hdev]
    rfl

namespace Newton

variable {α : Type} {n : Nat} [Scalar α] {newton : Newton α} {system : System α n}
  {y y₀ : Vector α n} {s s₀ : State α n} {budget : Nat}

open Journaled

/-! ## The simulation -/

/-- A decision can be made on every state. -/
def Decides (newton : Newton α) : Prop :=
  newton.checkTolerances = .ok () ∧ newton.thresholdHasAxes = false

theorem terminate_eq (h : newton.Decides) (s : State α n) :
    newton.terminate s = .ok (newton.status s).decision := by
  unfold terminate readFlags
  rw [h.1, h.2]
  rfl

/-- What a run reports at its last state becomes the verdict on this state. -/
theorem lastVerdict_eq (h : newton.Decides) (y : Vector α n) (s : State α n) :
    newton.lastVerdict s = .ok (newton.ending y s).outcome.verdict := by
  unfold lastVerdict ending Flags.outcome?
  rw [terminate_eq h]
  unfold Flags.decision
  cases (newton.status s).converged with
  | true => rfl
  | false =>
    cases (newton.status s).singular with
    | true => rfl
    | false => cases (newton.status s).nonFinite <;> rfl

variable [Decomposes α]

theorem stepWhile_of_raised (hd : newton.Decides) (h : (newton.status s).raised = true) :
    newton.stepWhile system budget y s = pure (y, s) := by
  cases budget with
  | zero => rfl
  | succ budget =>
    rw [stepWhile, terminate_eq hd]
    exact if_pos h

theorem stepWhile_succ (hd : newton.Decides) (h : (newton.status s).raised = false) :
    newton.stepWhile system (budget + 1) y s =
      (newton.step system y s >>= fun p => newton.stepWhile system budget p.1 p.2) := by
  have h' : ¬(newton.status s).decision.1 = true := by
    show ¬(newton.status s).raised = true
    rw [h]
    exact Bool.false_ne_true
  rw [stepWhile, terminate_eq hd]
  exact if_neg h'

variable (newton system) in
instance recording_stepWhile (budget : Nat) (y : Vector α n) (s : State α n) :
    Recording (newton.stepWhile system budget y s) := by
  induction budget generalizing y s with
  | zero => exact Recording.pure _
  | succ budget ih =>
    unfold stepWhile
    have hnext : ∀ decision : Bool × Verdict, Recording (match decision with
        | (done, _) => if done = true then pure (y, s)
          else newton.step system y s >>= fun p => newton.stepWhile system budget p.1 p.2 :
        Journaled α n (Vector α n × State α n)) := by
      rintro ⟨done, verdict⟩
      cases done with
      | true => exact Recording.pure (y, s)
      | false => exact inferInstanceAs (Recording (newton.step system y s >>= _))
    have := hnext
    infer_instance

/-- Both loops, with the same budget from the same place, end in the same place, and what one
of them reports is read off where the other one stops. -/
theorem value_iterate_eq_stepWhile (hd : newton.Decides) {m k : Nat}
    (hc : newton.machine.Counts m) (hk : k + budget = m)
    (hs : s.steps = newton.machine.counted k) :
    ({ newton with maxSteps := m }.iterate system y s).value =
      (newton.stepWhile system budget y s).value.map fun p => newton.ending p.1 p.2 := by
  have hsteps : s.steps = k := hs.trans (Machine.counted_of_counts (hc.mono (by omega)))
  induction budget generalizing k y s with
  | zero => exact value_iterate_of_last (Or.inl (show (m : Int) ≤ s.steps by omega))
  | succ budget ih =>
    cases h : (newton.status s).raised with
    | true =>
      rw [stepWhile_of_raised hd h]
      exact value_iterate_of_last (Or.inr h)
    | false =>
      have hstep : ({ newton with maxSteps := m }.step system y s).value =
          (newton.step system y s).value := rfl
      have hiterate : ({ newton with maxSteps := m }.iterate system y s).value = _ :=
        value_iterate_of_step h (show s.steps < (m : Int) by omega)
      rw [stepWhile_succ hd h, value_bind, hiterate, hstep]
      cases hvalue : (newton.step system y s).value with
      | error e => rfl
      | ok p =>
        obtain ⟨-, -, d, f, -, -, -, -, -, hp⟩ :=
          value_step_eq_ok_iff.1 (show (newton.step system y s).value = .ok (p.1, p.2) from hvalue)
        have hnext : p.2.steps = newton.machine.counted (k + 1) := by
          rw [hp, State.after, hs, Machine.next_counted]
        exact ih (by omega) hnext
          (hnext.trans (Machine.counted_of_counts (hc.mono (by omega))))

/-! ## The other driver -/

variable (newton system) in
instance recording_checkPolicy : Recording (newton.checkPolicy system) := by
  unfold checkPolicy
  cases system.jacobianShape with
  | ok s =>
    dsimp only
    split
    · exact Recording.ofExcept _ _
    · exact Recording.pure ()
  | error f =>
    dsimp only
    split
    · exact Recording.ofExcept _ _
    · exact Recording.pure ()

/-- What is looked at in advance where the shape of the residual is known. -/
def foresee (newton : Newton α) (system : System α n) (shape : Shape) : Journaled α n Unit :=
  if shape = [n] ∧ n ≠ 0 then newton.checkPolicy system else pure ()

variable (newton system) in
instance recording_foresee (shape : Shape) : Recording (newton.foresee system shape) := by
  unfold foresee
  split
  · infer_instance
  · infer_instance

/-- The loop of the driver, and what it reports of the place where it ends. -/
def judge (newton : Newton α) (system : System α n) (m : Nat) (y : Vector α n) (s : State α n) :
    Journaled α n (Root α n) :=
  newton.stepWhile system m y s >>= fun p =>
    Journaled.ofExcept id (newton.lastVerdict p.2) >>= fun verdict =>
      pure { value := p.1, verdict := verdict, steps := p.2.steps, residualNorm := p.2.norm }

variable (newton system) in
instance recording_judge (m : Nat) (y : Vector α n) (s : State α n) :
    Recording (newton.judge system m y s) := by
  unfold judge
  infer_instance

theorem value_judge (m : Nat) (y : Vector α n) (s : State α n) :
    (newton.judge system m y s).value =
      (newton.stepWhile system m y s).value.bind fun p =>
        (newton.lastVerdict p.2).map fun verdict =>
          { value := p.1, verdict := verdict, steps := p.2.steps, residualNorm := p.2.norm } := by
  unfold judge
  simp only [value_bind, value_ofExcept, mapError_id, value_pure]
  rfl

/-- Where decisions can be made, the last one is what a run reports. -/
theorem value_judge_of_decides (hd : newton.Decides) (m : Nat) (y : Vector α n) (s : State α n) :
    (newton.judge system m y s).value = (newton.stepWhile system m y s).value.map fun p =>
      (newton.ending p.1 p.2).root := by
  rw [value_judge]
  cases (newton.stepWhile system m y s).value with
  | error e => rfl
  | ok p =>
    simp only [Except.bind, lastVerdict_eq hd p.1]
    rfl

theorem rootFind_eq (m : Nat) (y : Vector α n) : newton.rootFind system m y =
    (Journaled.ofExcept .fault system.residualShape >>= fun shape =>
      newton.foresee system shape >>= fun _ =>
        newton.init system y >>= fun s =>
          Journaled.ofExcept id (newton.terminate s) >>= fun _ =>
            Journaled.ofExcept .fault system.jacobianShape >>= fun _ =>
              Journaled.ofExcept id newton.checkPivots >>= fun _ =>
                newton.judge system m y s) := by
  unfold rootFind
  refine bind_congr fun shape => ?_
  unfold foresee
  split
  · rfl
  · rw [pure_bind]
    rfl

/-- What a driver foresees from an admissible start is a tag on a device, if it knows the right
shape of the residual. -/
theorem value_foresee {residualShape jacobianShape : Shape}
    (hj : system.jacobianShape = .ok jacobianShape)
    (h₀ : (newton.init system y₀).value = .ok s₀) : (newton.foresee system residualShape).value =
      if residualShape = [n] ∧ newton.projection.hasDeviceTag = true then
        .error (.policy .unknownTag)
      else .ok () := by
  obtain ⟨hn, -, -, hshape, ⟨mask, hm⟩, -⟩ := value_init_eq_ok_iff.1 h₀
  have hsquare : jacobianShape = [n, n] := by
    unfold System.checkJacobianShape at hshape
    rw [hj] at hshape
    by_contra hne
    simp [hne] at hshape
  unfold foresee
  by_cases hr : residualShape = [n]
  · rw [if_pos ⟨hr, hn⟩, checkPolicy, hj]
    simp only [hsquare, hr, if_true, value_ofExcept, checkKnownPolicy_eq hm, true_and]
    cases newton.projection.hasDeviceTag <;> rfl
  · simp [hr]

/-- Without a tag on a device nothing is foreseen. -/
theorem value_foresee_of_known {residualShape jacobianShape : Shape}
    (hj : system.jacobianShape = .ok jacobianShape)
    (h₀ : (newton.init system y₀).value = .ok s₀)
    (hdev : newton.projection.hasDeviceTag = false) :
    (newton.foresee system residualShape).value = .ok () := by
  rw [value_foresee hj h₀, hdev]
  exact if_neg fun h => Bool.false_ne_true h.2

/-- The result of the driver, from a start with a state. -/
theorem value_rootFind {residualShape jacobianShape : Shape}
    (hr : system.residualShape = .ok residualShape) (hj : system.jacobianShape = .ok jacobianShape)
    (h₀ : (newton.init system y₀).value = .ok s₀) (m : Nat) :
    (newton.rootFind system m y₀).value =
      (newton.foresee system residualShape).value.bind fun _ =>
        (newton.terminate s₀).bind fun _ => newton.checkPivots.bind fun _ =>
          (newton.judge system m y₀ s₀).value := by
  rw [rootFind_eq, hr, hj]
  simp only [value_bind, value_ofExcept, mapError_id, h₀]
  rfl

/-- The two drivers agree where the policy is known in advance, the threshold has no axes, the
pivot threshold can be used and the counter can reach the budget. -/
theorem value_rootFind_eq_run {residualShape jacobianShape : Shape}
    (hr : system.residualShape = .ok residualShape) (hj : system.jacobianShape = .ok jacobianShape)
    (h₀ : (newton.init system y₀).value = .ok s₀) (hdev : newton.projection.hasDeviceTag = false)
    (haxes : newton.thresholdHasAxes = false) (hp : newton.checkPivots = .ok ()) {m : Nat}
    (hc : newton.machine.Counts m) : (newton.rootFind system m y₀).value =
      ({ newton with maxSteps := m }.run system y₀).value.map Solution.root := by
  have h₀' : ({ newton with maxSteps := m }.init system y₀).value = .ok s₀ := h₀
  rw [value_rootFind hr hj h₀, value_foresee_of_known hj h₀ hdev, value_run h₀', hp]
  show (newton.terminate s₀).bind (fun _ => (newton.judge system m y₀ s₀).value) =
    (newton.checkTolerances.bind fun _ => _).map Solution.root
  by_cases hfit : newton.checkTolerances = .ok ()
  · have hd : newton.Decides := ⟨hfit, haxes⟩
    have hloop : ({ newton with maxSteps := m }.iterate system y₀ s₀).value = _ :=
      value_iterate_eq_stepWhile hd hc (Nat.zero_add m)
        ((steps_of_init h₀).trans Machine.counted_zero.symm)
    rw [terminate_eq hd, value_judge_of_decides hd, hloop, hfit]
    simp only [Except.bind, map_map_eq]
    rfl
  · obtain ⟨e, he⟩ : ∃ e, newton.checkTolerances = .error e := by
      cases h : newton.checkTolerances with
      | ok u => exact absurd h hfit
      | error e => exact ⟨e, rfl⟩
    unfold terminate readFlags
    rw [he]
    rfl

/-- On a system with values of the right shapes the driver has a result. -/
theorem exists_root (hsq : system.IsSquare) {residualShape jacobianShape : Shape}
    (hr : system.residualShape = .ok residualShape) (hj : system.jacobianShape = .ok jacobianShape)
    (h₀ : (newton.init system y₀).value = .ok s₀) (hdev : newton.projection.hasDeviceTag = false)
    (hd : newton.Decides) (hp : newton.checkPivots = .ok ()) (m : Nat) :
    ∃ root, (newton.rootFind system m y₀).value = .ok root := by
  obtain ⟨-, -, -, -, ⟨mask, hm⟩, -⟩ := value_init_eq_ok_iff.1 h₀
  have hloop : ∀ budget y s, ∃ p, (newton.stepWhile system budget y s).value = .ok p := by
    intro budget
    induction budget with
    | zero => exact fun y s => ⟨(y, s), rfl⟩
    | succ budget ih =>
      intro y s
      cases h : (newton.status s).raised with
      | true => exact ⟨(y, s), by rw [stepWhile_of_raised hd h]; rfl⟩
      | false =>
        obtain ⟨y', s', hstep⟩ := exists_step hsq hp hm y s
        obtain ⟨p, hrest⟩ := ih y' s'
        exact ⟨p, by rw [stepWhile_succ hd h, value_bind, hstep]; exact hrest⟩
  obtain ⟨p, hrest⟩ := hloop m y₀ s₀
  rw [value_rootFind hr hj h₀, value_foresee_of_known hj h₀ hdev, terminate_eq hd, hp,
    value_judge_of_decides hd, hrest]
  exact ⟨(newton.ending p.1 p.2).root, rfl⟩

end Newton

section Accepted

variable {α : Type} {n : Nat} [Elementary α] [Decomposes α] {solver : Solver}
  {system : System α n} {y₀ : Vector α n} {s₀ : State α n}

/-- Neither tolerance is an array with axes. -/
def Solver.HasScalarThreshold (solver : Solver) : Prop :=
  (solver.rtol.hasAxes || solver.atol.hasAxes) = false

namespace Newton

open Journaled

/-- From an admissible start, where the shapes are known in advance, the two drivers with the
same budget, which the counter can reach, agree : iterate, steps and norm are the same, and the
verdict is that of the outcome. On a system with values of the right shapes, and with
tolerances that fit, both have a result. The exceptions are a tag on a device and, where the
policy is known and the tolerances fit, a threshold with axes; the driver that knows only the
decision then fails before the first step. -/
theorem rootFind_agrees_with_run {residualShape jacobianShape : Shape}
    (hr : system.residualShape = .ok residualShape) (hj : system.jacobianShape = .ok jacobianShape)
    (h₀ : ((solver.newton α).init system y₀).value = .ok s₀) (m : Nat) :
    (solver.projection.hasDeviceTag = false → solver.HasScalarThreshold → solver.PivotsUsable →
      solver.machine.Counts m →
      ((solver.newton α).rootFind system m y₀).value =
        (({ solver with maxSteps := m }.newton α).run system y₀).value.map Solution.root ∧
      (system.IsSquare → solver.TolerancesFit → ∃ solution,
        (({ solver with maxSteps := m }.newton α).run system y₀).value = .ok solution)) ∧
    (solver.projection.hasDeviceTag = true → residualShape = [n] →
      ((solver.newton α).rootFind system m y₀).value = .error (.policy .unknownTag)) ∧
    (solver.projection.hasDeviceTag = false → solver.TolerancesFit →
      ¬solver.HasScalarThreshold →
      ((solver.newton α).rootFind system m y₀).value = .error .thresholdWithAxes) := by
  refine ⟨fun hdev haxes hp hc => ⟨?_, fun hsq ht => ?_⟩, fun hdev hn => ?_,
    fun hdev ht haxes => ?_⟩
  · exact value_rootFind_eq_run hr hj h₀ hdev haxes (Solver.checkPivots_newton hp) hc
  · have h₀' : (({ solver with maxSteps := m }.newton α).init system y₀).value = .ok s₀ := h₀
    exact exists_solution hsq h₀' (Solver.checkTolerances_newton ht)
      (Solver.checkPivots_newton hp) hc
  · rw [value_rootFind hr hj h₀, value_foresee hj h₀, if_pos ⟨hn, hdev⟩]
    rfl
  · have haxes' : (solver.newton α).thresholdHasAxes = true := (Bool.not_eq_false _).mp haxes
    rw [value_rootFind hr hj h₀, value_foresee_of_known hj h₀ hdev, terminate, readFlags,
      Solver.checkTolerances_newton ht, haxes']
    rfl

end Newton

end Accepted

namespace Newton

open Journaled

/-- The two drivers from three in the default configuration, with a budget of five steps. -/
theorem rootFind_unitEquation :
    ∃ solution, (({ Solver.standard with maxSteps := 5 }.newton Binary64).run unitEquation
        #v[⟨3⟩]).value = .ok solution ∧
      ((Solver.standard.newton Binary64).rootFind unitEquation 5 #v[⟨3⟩]).value =
        .ok solution.root := by
  obtain ⟨heq, hsome⟩ :=
    (rootFind_agrees_with_run rfl rfl init_standard 5).1 rfl rfl Solver.pivotsUsable_standard
      (by decide)
  obtain ⟨solution, hrun⟩ := hsome isSquare_unitEquation Solver.tolerancesFit_standard
  refine ⟨solution, hrun, ?_⟩
  rw [heq, hrun]
  rfl

/-- Three accepted configurations with which the drivers differ : a tag on a device, and a
tolerance that is an array with one axis, at a solution where no step is taken, and a budget that
the counter cannot reach, where only the driver with a budget of its own has an end. -/
theorem rootFind_of_accepted_fails :
    (∃ solver s₀ solution,
      Solver.ofSettings { projection := .list [.array .device .int64 (.int 1)] } = .ok solver ∧
      ((solver.newton Binary64).init unitEquation #v[⟨1⟩]).value = .ok s₀ ∧
      (({ solver with maxSteps := 100 }.newton Binary64).run unitEquation #v[⟨1⟩]).value =
        .ok solution ∧
      ((solver.newton Binary64).rootFind unitEquation 100 #v[⟨1⟩]).value =
        .error (.policy .unknownTag)) ∧
    (∃ solver s₀ solution,
      Solver.ofSettings { rtol := .array .host .float64 (.list [.float 0.0]) } = .ok solver ∧
      ((solver.newton Binary64).init unitEquation #v[⟨1⟩]).value = .ok s₀ ∧
      (({ solver with maxSteps := 100 }.newton Binary64).run unitEquation #v[⟨1⟩]).value =
        .ok solution ∧
      ((solver.newton Binary64).rootFind unitEquation 100 #v[⟨1⟩]).value =
        .error .thresholdWithAxes) ∧
    ∃ solver s₀ root,
      Solver.ofSettings { machine := { wide := false } } = .ok solver ∧
      ((solver.newton Binary32).init rootlessEquation #v[0]).value = .ok s₀ ∧
      (({ solver with maxSteps := 3000000000 }.newton Binary32).run rootlessEquation #v[0]).value =
        .error .endless ∧
      ((solver.newton Binary32).rootFind rootlessEquation 3000000000 #v[0]).value = .ok root := by
  have hstart : ∀ rtol projection, maskFor {} projection 1 = .ok #v[true] →
      ((Solver.newton Binary64 { Solver.standard with rtol := rtol, projection := projection }).init
        unitEquation #v[⟨1⟩]).value = .ok (.initial #v[⟨0⟩]) :=
    fun rtol projection h => init_unitEquation h (by decide +kernel)
  have hrun : ∀ rtol projection, rtol.literal = .float 0.0 → rtol.checkFit .int64 = .ok () →
      maskFor {} projection 1 = .ok #v[true] → ∃ solution, ((Solver.newton Binary64
        { Solver.standard with rtol := rtol, projection := projection }).run unitEquation
        #v[⟨1⟩]).value = .ok solution := by
    intro rtol projection hr hfit hm
    have hraised : ((Solver.newton Binary64 { Solver.standard with
        rtol := rtol, projection := projection }).status (.initial #v[⟨0⟩])).raised = true := by
      simp only [Newton.status, Newton.threshold, Solver.newton, hr]
      decide +kernel
    exact ⟨_, value_run_of_raised (hstart rtol projection hm)
      (Solver.checkTolerances_newton ⟨hfit, rfl⟩) hraised⟩
  obtain ⟨solution, hsolution⟩ :=
    hrun (.float 0.0) (.tuple [.array .device .int64 (.int 1)]) rfl rfl rfl
  obtain ⟨solution', hsolution'⟩ :=
    hrun (.array .host .float64 (.list [.float 0.0])) (.text nonnegative) rfl rfl rfl
  have h₀ : ((Solver.newton Binary32 { Solver.standard with machine := { wide := false } }).init
      rootlessEquation #v[0]).value = .ok (.initial #v[1]) :=
    value_init_ofMaps Nat.one_ne_zero (show maskFor _ _ 1 = .ok #v[true] from rfl) _ _ _
  obtain ⟨root, hroot⟩ := exists_root (System.isSquare_ofMaps _ _) rfl rfl h₀ rfl ⟨rfl, rfl⟩ rfl
    3000000000
  have hdevice := hstart (.float 0.0) (.tuple [.array .device .int64 (.int 1)]) rfl
  have haxis := hstart (.array .host .float64 (.list [.float 0.0])) (.text nonnegative) rfl
  refine ⟨⟨_, _, solution, rfl, hdevice, hsolution, ?_⟩,
    ⟨_, _, solution', rfl, haxis, hsolution', ?_⟩,
    ⟨_, _, root, rfl, h₀, run_rootlessEquation, hroot⟩⟩
  · exact (value_rootFind rfl rfl hdevice 100).trans (by rw [value_foresee rfl hdevice]; rfl)
  · exact (value_rootFind rfl rfl haxis 100).trans (by rw [value_foresee rfl haxis]; rfl)

end Newton

end Stationary
