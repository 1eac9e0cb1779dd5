import Stationary.Proofs.Flushing
import Stationary.Proofs.LoopHeads

/-!
# Flags that exclude each other

The flags of an arbitrary state may all be up, and so they may in a walk that goes on after a
flag. At the places that a run visits at most one is (`Newton.Visits.exclusive`). A state with
the converged flag has a finite residual, whatever came before, since a norm below anything is
that of finite numbers. And a state with the singular flag is the one before with the flag put
up (`State.failed`) : the iterate has stayed, a residual has one value at an iterate, and so
norm and residual are the old ones. At the state before no flag was up, or the run would have
stopped.

So it does not matter in which order a run asks for the flags. `Newton.runBy` is the run with
any reading of them, and readings that agree on exclusive flags make the same run, journal
included (`Newton.runBy_eq_run`).
-/

set_option linter.unusedSectionVars false

namespace Stationary

/-! ## Reading flags -/

namespace Flags

variable {f : Flags} {order order' : List Outcome}

/-- The flag that announces an outcome. -/
def announces (f : Flags) : Outcome → Bool
  | .success => f.converged
  | .singularJacobian => f.singular
  | .nonFinite => f.nonFinite
  | .maxIterations => false

/-- At most one of the flags is up. -/
def Exclusive (f : Flags) : Prop :=
  ∀ o o', f.announces o = true → f.announces o' = true → o = o'

/-- The outcome of the first flag that is up, where the flags are asked for in some order. -/
def firstOf (order : List Outcome) (f : Flags) : Option Outcome :=
  order.find? f.announces

/-- The order of precedence. -/
theorem firstOf_eq_outcome? (f : Flags) :
    firstOf [.success, .singularJacobian, .nonFinite] f = f.outcome? := by
  simp only [firstOf, List.find?, announces, outcome?]
  cases f.converged <;> cases f.singular <;> cases f.nonFinite <;> rfl

/-- Three flags exclude each other if they do so in pairs. -/
theorem exclusive_of_pairs (hc : f.converged = true → f.singular = false ∧ f.nonFinite = false)
    (hs : f.singular = true → f.nonFinite = false) : f.Exclusive := by
  intro o o' ho ho'
  cases o <;> cases o' <;> simp_all [announces]

/-- Exclusive flags may be asked for in any order. -/
theorem Exclusive.firstOf_perm (h : f.Exclusive) (hp : order.Perm order') :
    firstOf order f = firstOf order' f := by
  unfold firstOf
  cases ho : order.find? f.announces with
  | some o =>
    have hmem : o ∈ order' := hp.mem_iff.1 (List.mem_of_find?_eq_some ho)
    have hup : f.announces o = true := List.find?_some ho
    cases ho' : order'.find? f.announces with
    | some o' => rw [h o o' hup (List.find?_some ho')]
    | none => exact absurd hup (List.find?_eq_none.1 ho' o hmem)
  | none =>
    refine (List.find?_eq_none.2 fun o ho' => ?_).symm
    exact List.find?_eq_none.1 ho o (hp.mem_iff.2 ho')

end Flags

/-! ## Steps that could not be used -/

/-- The state after a step that could not be used. -/
def State.failed {α : Type} {n : Nat} (machine : Machine) (s : State α n) : State α n :=
  { s with steps := machine.next s.steps, stepFailed := true }

namespace Newton

open Journaled

section Steps

variable {α : Type} {n : Nat} [Scalar α] [Decomposes α] {newton : Newton α}
  {system : System α n} {y₀ y y' : Vector α n} {s s' : State α n} {k : Nat}
  {d : LinearStep α n}

omit [Decomposes α] in
/-- With the residual at the same iterate only the counter and the flag change. -/
theorem Tracks.after_eq_failed {machine : Machine} (ht : Tracks machine system y₀ k y s)
    (hu : d.usable = false) : s.after machine d s.residual = s.failed machine := by
  unfold State.after State.failed
  rw [hu, ht.norm]
  rfl

/-- A step that could not be used leaves the iterate where it is. A residual has one value
there, so the state is the old one with the flag put up. -/
theorem eq_failed_of_step (ht : Tracks newton.machine system y₀ k y s)
    (hstep : (newton.step system y s).value = .ok (y', s')) (hf : s'.stepFailed = true) :
    y' = y ∧ s' = s.failed newton.machine ∧
      ∃ d, newton.Solves system y s d ∧ d.usable = false := by
  obtain ⟨mask, A, d, f, -, hA, hd, rfl, hres, rfl⟩ := value_step_eq_ok_iff.1 hstep
  have hu : d.usable = false := by simpa [State.after] using hf
  have hy : advance mask y d = y := advance_of_unusable mask y hu
  rw [hy, ht.residual] at hres
  obtain rfl := Except.ok.inj hres
  exact ⟨hy, ht.after_eq_failed hu, d, ⟨A, hA, hd⟩, hu⟩

/-- The place before one with the singular flag is the same iterate without a flag, and the
linear step that failed there is the one that would be taken next. -/
theorem Visits.of_stepFailed (h : Visits newton system y₀ k y s) (hf : s.stepFailed = true) :
    ∃ j t, k = j + 1 ∧ Visits newton system y₀ j y t ∧ s = t.failed newton.machine ∧
      (newton.status t).raised = false ∧
      ∃ d, newton.Solves system y s d ∧ d.usable = false := by
  cases h with
  | start h₀ _ =>
    obtain ⟨-, f, -, -, -, rfl⟩ := value_init_eq_ok_iff.1 h₀
    cases hf
  | @step j z _ t _ hvisit hj hraised hstep =>
    obtain ⟨rfl, rfl, d, hd, hu⟩ := eq_failed_of_step (tracks_walk hvisit.walk) hstep hf
    exact ⟨j, t, rfl, hvisit, rfl, hraised, d, hd, hu⟩

/-- A run that has to leave a place with a linear step that cannot be used ends there, one step
later and for a singular Jacobian. -/
theorem Visits.value_run_of_unusable (h : Visits newton system y₀ k y s)
    (hk : newton.machine.counted k < newton.maxSteps) (hraised : (newton.status s).raised = false)
    (hd : newton.Solves system y s d) (hu : d.usable = false) :
    (newton.run system y₀).value = .ok
      { value := y, outcome := .singularJacobian, steps := newton.machine.counted (k + 1),
        residualNorm := s.norm } := by
  have ht := tracks_walk h.walk
  obtain ⟨mask, hm⟩ := h.exists_mask
  obtain ⟨A, hA, hd⟩ := hd
  have hstep : (newton.step system y s).value = .ok (y, s.failed newton.machine) :=
    value_step_eq_ok_iff.2 ⟨mask, A, d, s.residual, hm, hA, hd,
      (advance_of_unusable mask y hu).symm, ht.residual, (ht.after_eq_failed hu).symm⟩
  -- the failed state has the old norm, so only the new flag is up
  have hconverged : (newton.status (s.failed newton.machine)).converged = false := by
    simp only [Flags.raised, Bool.or_eq_false_iff] at hraised
    exact hraised.1.1
  have hflag : (newton.status (s.failed newton.machine)).raised = true := by
    simp [Flags.raised, status, State.flags, State.failed]
  have houtcome : (newton.ending y (s.failed newton.machine)).outcome = .singularJacobian := by
    rw [outcome_ending, hconverged]
    rfl
  rw [(h.step hk hraised hstep).value_run_of_last (Or.inr hflag), ← houtcome,
    ← (h.step hk hraised hstep).steps]
  rfl

/-- A run with budget left at an iterate that has not converged, where the residual is finite and
the linear step cannot be used, ends there : at once if it has tried this step already, and
otherwise one step later. -/
theorem Visits.value_run_of_stuck (h : Visits newton system y₀ k y s)
    (hk : newton.machine.counted k < newton.maxSteps) (hfinite : Vec.allFinite s.residual = true)
    (hconverged : (newton.status s).converged = false) (hd : newton.Solves system y s d)
    (hu : d.usable = false) : (newton.run system y₀).value = .ok
      { value := y, outcome := .singularJacobian,
        steps := newton.machine.counted (if s.stepFailed then k else k + 1),
        residualNorm := s.norm } := by
  cases hfailed : s.stepFailed with
  | true =>
    have hflag : (newton.status s).raised = true := by
      simp [Flags.raised, status, State.flags, hfailed]
    have houtcome : (newton.ending y s).outcome = .singularJacobian := by
      rw [outcome_ending, hconverged, hfailed]
      rfl
    rw [h.value_run_of_last (Or.inr hflag), ← houtcome, if_pos rfl, ← (tracks_walk h.walk).steps]
    rfl
  | false =>
    have hraised : (newton.status s).raised = false := by
      have hnonFinite : (newton.status s).nonFinite = false := congrArg (!·) hfinite
      have hsingular : (newton.status s).singular = false := hfailed
      rw [Flags.raised, hconverged, hsingular, hnonFinite]
      rfl
    exact h.value_run_of_unusable hk hraised hd hu

/-! ## Runs that read the flags in another way -/

/-- The outcome with which a run stops in a state, with the flags read in some way. -/
def stopBy? (newton : Newton α) (read : Flags → Option Outcome) (s : State α n) :
    Option Outcome :=
  match read (newton.status s) with
  | some outcome => some outcome
  | none => if newton.maxSteps ≤ s.steps then some .maxIterations else none

/-- The run, with the flags read in some way. -/
def runBy (newton : Newton α) (read : Flags → Option Outcome) (system : System α n)
    (y : Vector α n) : Journaled α n (Solution α n) := do
  let s ← newton.init system y
  ofExcept id newton.checkTolerances
  repeatUntil (newton.stopBy? read) (newton.step system) y s

/-- Readings that agree at all places a run visits make the same run, with the same journal. -/
theorem runBy_eq_run {read : Flags → Option Outcome}
    (hread : ∀ j z t, Visits newton system y₀ j z t →
      read (newton.status t) = (newton.status t).outcome?) :
    newton.runBy read system y₀ = newton.run system y₀ := by
  unfold runBy run
  refine bind_congr_value fun s₀ h₀ => bind_congr_value fun _ ht => ?_
  rw [value_ofExcept, mapError_id] at ht
  -- the places where the loops agree are those that the run visits
  refine repeatUntil_congr (P := fun z t => ∃ j, Visits newton system y₀ j z t) ?_
    (fun _ _ _ _ => rfl) ?_ ⟨0, .start h₀ ht⟩
  · rintro z t ⟨j, hvisit⟩
    have hflags := hread j z t hvisit
    unfold stopBy? stop?
    cases h : (newton.status t).outcome? <;> simp only [hflags, h]
  · rintro z t z' t' ⟨j, hvisit⟩ hnone hstep
    obtain ⟨hraised, hsteps⟩ := stop?_eq_none_iff.1 hnone
    rw [hvisit.steps] at hsteps
    exact ⟨j + 1, hvisit.step hsteps hraised hstep⟩

end Steps

section Formats

variable {α : Type} {n : Nat} [Scalar α] [Subnormal α] [Binade α] [BinaryFormat α]
  {newton : Newton (Flushed α)} {system : System (Flushed α) n}
  {y₀ y : Vector (Flushed α) n} {s : State (Flushed α) n} {k : Nat}

/-- A state of a walk that has converged has a finite residual. -/
theorem allFinite_of_converged (ht : Tracks newton.machine system y₀ k y s)
    (hc : (newton.status s).converged = true) : Vec.allFinite s.residual = true := by
  have hlt : Scalar.lt s.norm (newton.threshold s.initialNorm) = true := hc
  rw [ht.norm] at hlt
  exact Flushed.allFinite_of_lt_norm hlt

/-- At a place that a run visits at most one flag is up. -/
theorem Visits.exclusive (h : Visits newton system y₀ k y s) :
    (newton.status s).Exclusive := by
  have hfinite : (newton.status s).converged = true → (newton.status s).nonFinite = false := by
    intro hc
    show (!Vec.allFinite s.residual) = false
    rw [allFinite_of_converged (tracks_walk h.walk) hc]
    rfl
  cases hs : (newton.status s).singular with
  | false =>
    refine Flags.exclusive_of_pairs (fun hc => ⟨hs, hfinite hc⟩) fun hs' => ?_
    rw [hs] at hs'
    cases hs'
  | true =>
    obtain ⟨j, t, -, -, rfl, hraised, -⟩ := h.of_stepFailed hs
    simp only [Flags.raised, Bool.or_eq_false_iff] at hraised
    have hc : (newton.status (t.failed newton.machine)).converged = false := hraised.1.1
    have hn : (newton.status (t.failed newton.machine)).nonFinite = false := hraised.2
    refine Flags.exclusive_of_pairs (fun hc' => ?_) fun _ => hn
    rw [hc] at hc'
    cases hc'

/-- At every place that a run visits at most one flag is up. So a run asks for the flags in any
order with the same result and the same journal. And a run that ends for a singular
Jacobian ends where it was before the step that failed : the residual there is finite, its
norm is not below the threshold, and the linear step fails again. -/
theorem flags_exclude_each_other (newton : Newton (Flushed α)) (system : System (Flushed α) n)
    (y₀ : Vector (Flushed α) n) :
    (∀ k y s, Visits newton system y₀ k y s → (newton.status s).Exclusive) ∧
    (∀ order : List Outcome, order.Perm [.success, .singularJacobian, .nonFinite] →
      newton.runBy (Flags.firstOf order) system y₀ = newton.run system y₀) ∧
    (∀ solution, (newton.run system y₀).value = .ok solution →
      solution.outcome = .singularJacobian →
      ∃ k s f f₀ d, solution.steps = newton.machine.counted (k + 1) ∧
        Visits newton system y₀ k solution.value s ∧
        Visits newton system y₀ (k + 1) solution.value (s.failed newton.machine) ∧
        system.residualVector solution.value = .ok f ∧ system.residualVector y₀ = .ok f₀ ∧
        (∀ i, Scalar.isFinite (f.get i) = true) ∧ solution.residualNorm = Vec.norm f ∧
        Scalar.lt (Vec.norm f) (newton.atol + newton.rtol * Vec.norm f₀) = false ∧
        newton.Solves system solution.value (s.failed newton.machine) d ∧ d.usable = false) := by
  refine ⟨fun k y s h => h.exclusive, fun order hp => ?_, fun solution hrun hsingular => ?_⟩
  · refine runBy_eq_run fun j z t h => ?_
    rw [h.exclusive.firstOf_perm hp, Flags.firstOf_eq_outcome?]
  · obtain ⟨_, s, hvisit, hend, -⟩ := exists_visits_of_run hrun
    have hnorm : solution.residualNorm = s.norm := (congrArg Solution.residualNorm hend).symm
    have hfailed : s.stepFailed = true :=
      stepFailed_of_outcome_ending ((congrArg Solution.outcome hend).trans hsingular)
    obtain ⟨k, t, rfl, hbefore, rfl, hraised, d, hd, hu⟩ := hvisit.of_stepFailed hfailed
    obtain ⟨-, hres, htnorm, f₀, hf₀, hinit⟩ := tracks_walk hbefore.walk
    simp only [Flags.raised, Bool.or_eq_false_iff] at hraised
    obtain ⟨⟨hc, -⟩, hn⟩ := hraised
    have hlt : Scalar.lt t.norm (newton.atol + newton.rtol * t.initialNorm) = false := hc
    have hfin : Vec.allFinite t.residual = true := by simpa [status, State.flags] using hn
    rw [htnorm, hinit] at hlt
    rw [hnorm]
    exact ⟨k, t, t.residual, f₀, d, hvisit.steps_of_ending hend, hbefore, hvisit, hres, hf₀,
      fun i => Vector.all_eq_true.1 hfin i i.isLt, htnorm, hlt, hd, hu⟩

end Formats

/-- From three, in the default configuration, the first step fails : the run ends at three, and
asks for the flags in the opposite order with the same result. -/
theorem flags_flatEquation :
    ∃ solution k s, ((Solver.standard.newton Binary64).run flatEquation #v[⟨3⟩]).value =
        .ok solution ∧ solution.outcome = .singularJacobian ∧
      Visits (Solver.standard.newton Binary64) flatEquation #v[⟨3⟩] k solution.value s ∧
      ((Solver.standard.newton Binary64).status
        (s.failed (Solver.standard.newton Binary64).machine)).Exclusive ∧
      (Solver.standard.newton Binary64).runBy
        (Flags.firstOf [.nonFinite, .singularJacobian, .success]) flatEquation #v[⟨3⟩] =
          (Solver.standard.newton Binary64).run flatEquation #v[⟨3⟩] := by
  obtain ⟨hexclusive, horder, hsingular⟩ :=
    flags_exclude_each_other (Solver.standard.newton Binary64) flatEquation #v[⟨3⟩]
  have heval : ((Solver.standard.newton Binary64).runFor flatEquation 2 #v[⟨3⟩]).map
      (·.toOption.map Solution.outcome) = some (some .singularJacobian) := by decide +kernel
  obtain ⟨solution, hrun, hout⟩ := exists_run_of_runFor heval
  obtain ⟨k, s, -, -, -, -, hvisit, hlast, -⟩ := hsingular solution hrun hout
  exact ⟨solution, k, s, hrun, hout, hvisit, hexclusive _ _ _ hlast, horder _ (by decide)⟩

end Newton

end Stationary
