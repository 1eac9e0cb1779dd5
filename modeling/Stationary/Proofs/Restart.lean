import Stationary.Proofs.Exclusive
import Stationary.Proofs.Lockstep

/-!
# Restarting a run

A run can be taken up again at any of its iterates, if no relative tolerance is asked for. The new
run does not know how many steps were taken before, nor the norm at the old start
(`State.since`). Neither matters to a step, which is the move from the stored residual. The
norm at the start matters to the converged flag, but not if it is finite and counts zero times
(`Newton.converged_eq`); and where the residual is not finite, nothing is converged.
So the two runs are in lockstep from the place of the restart on (`Newton.Visits.lockstep_since`).

A run can be taken up after any step that could be used. After the one that could not, the state
has a flag up that a start does not have; the iterate is the one before that step, and taken up
there the run fails once more.
-/

set_option linter.unusedSectionVars false

namespace Stationary

/-- The state as a run has it that started `j` steps later, at a residual of norm `m`. -/
def State.since {α : Type} {n : Nat} (machine : Machine) (s : State α n) (j : Nat) (m : α) :
    State α n :=
  { s with steps := machine.integers.wrap (s.steps - j), initialNorm := m }

/-- The solution with `j` steps less. -/
def Solution.since {α : Type} {n : Nat} (machine : Machine) (s : Solution α n) (j : Nat) :
    Solution α n :=
  { s with steps := machine.integers.wrap (s.steps - j) }

/-- A counter that has been set back shows the steps since then. -/
theorem Machine.wrap_counted_sub {machine : Machine} {j k : Nat} (h : j ≤ k) :
    machine.integers.wrap (machine.counted k - j) = machine.counted (k - j) := by
  rw [counted, Int.sub_eq_add_neg, wrap_wrap_add, ← Int.sub_eq_add_neg, counted,
    Int.ofNat_sub h]

theorem Machine.next_wrap_sub {machine : Machine} (i : Int) (j : Nat) :
    machine.next (machine.integers.wrap (i - j)) = machine.integers.wrap (machine.next i - j) := by
  have hsum : i - j + 1 = i + 1 + -(j : Int) := by omega
  rw [next, next, wrap_wrap_add, hsum, Int.sub_eq_add_neg, wrap_wrap_add]

/-- What a step finds out does not depend on the counter. -/
theorem State.moved_since {α : Type} {n : Nat} [Scalar α] (machine : Machine) (s : State α n)
    (j : Nat) (m : α) (move : Move α n) :
    (s.since machine j m).moved machine move = (s.moved machine move).since machine j m := by
  unfold moved since
  rw [Machine.next_wrap_sub]

namespace Newton

open Journaled

section Counting

variable {α : Type} {n : Nat} [Scalar α] [Decomposes α] {newton : Newton α}
  {system : System α n} {y₀ y : Vector α n} {s : State α n} {k : Nat}

/-- The number of those among the first `k` steps whose linear step could be used. -/
def usableSteps (newton : Newton α) (system : System α n) (y₀ : Vector α n) (k : Nat) : Nat :=
  (List.range k).countP fun j =>
    (newton.walk system y₀ (j + 1)).toOption.any fun p => !p.2.stepFailed

/-- A run visits a place after as many steps as it has taken usable ones, or less, and the last
step before this place could be used. -/
theorem Visits.exists_usable {j : Nat} (h : Visits newton system y₀ k y s)
    (hj : j ≤ newton.usableSteps system y₀ k) :
    j ≤ k ∧ ∃ z t, Visits newton system y₀ j z t ∧ t.stepFailed = false := by
  have hle : newton.usableSteps system y₀ k ≤ k := by
    simpa [usableSteps] using List.countP_le_length (l := List.range k)
  refine ⟨hj.trans hle, ?_⟩
  rcases Nat.eq_or_lt_of_le (hj.trans hle) with rfl | hlt
  · refine ⟨y, s, h, ?_⟩
    cases h with
    | start h₀ _ =>
      obtain ⟨-, f, -, -, -, rfl⟩ := value_init_eq_ok_iff.1 h₀
      rfl
    | @step k z y t s hvisit hk hraised hstep =>
      have hall := List.countP_eq_length.1 ((hle.antisymm hj).trans List.length_range.symm)
      have hlast := hall k (List.mem_range.2 (Nat.lt_succ_self k))
      rw [walk_succ_of_ok hvisit.walk, hstep] at hlast
      simpa [Except.toOption] using hlast
  · obtain ⟨z, t, hvisit, -, hraised⟩ := h.exists_before hlt
    simp only [Flags.raised, Bool.or_eq_false_iff] at hraised
    exact ⟨z, t, hvisit, hraised.1.2⟩

end Counting

section Budgets

variable {α : Type} {n : Nat} [Scalar α] [Decomposes α] {newton : Newton α}
  {system : System α n} {y : Vector α n} {s : State α n} {budget : Nat}

/-- The iteration with another budget. -/
def withBudget (newton : Newton α) (budget : Nat) : Newton α :=
  { newton with maxSteps := budget }

/-- A budget does not change what is read off a state. -/
theorem status_withBudget : (newton.withBudget budget).status s = newton.status s :=
  rfl

theorem value_run_withBudget (h₀ : (newton.init system y).value = .ok s)
    (ht : newton.checkTolerances = .ok ()) : ((newton.withBudget budget).run system y).value =
      ((newton.withBudget budget).iterate system y s).value := by
  have h₀' : ((newton.withBudget budget).init system y).value = .ok s := h₀
  have ht' : (newton.withBudget budget).checkTolerances = .ok () := ht
  rw [value_run h₀', ht']
  rfl

end Budgets

section Formats

variable {α : Type} {n : Nat} [Scalar α] [Subnormal α] [Binade α] [BinaryFormat α]
  {newton : Newton (Flushed α)} {system : System (Flushed α) n}
  {y₀ y z : Vector (Flushed α) n} {s t : State (Flushed α) n} {m : Flushed α} {j k budget : Nat}

/-! ## Flags -/

/-- Without a relative tolerance the converged flag compares with the absolute one, if the norm at
the start is finite, and is down otherwise. -/
theorem converged_eq (hr : newton.rtol = 0 ∨ newton.rtol = -0) :
    (newton.status s).converged =
      (Scalar.isFinite s.initialNorm && Scalar.lt s.norm newton.atol) :=
  Flushed.lt_add_zero_mul (Flushed.isZero_of_eq hr) _ _ _

/-- Up to a place with a finite residual all residuals on the way are finite. -/
theorem Visits.allFinite_before (h : Visits newton system y₀ k y s)
    (hs : Vec.allFinite s.residual = true) (hj : j ≤ k) (h' : Visits newton system y₀ j z t) :
    Vec.allFinite t.residual = true := by
  rcases Nat.eq_or_lt_of_le hj with rfl | hlt
  · obtain ⟨-, rfl⟩ := h.unique h'
    exact hs
  · obtain ⟨z', t', hvisit, -, hraised⟩ := h.exists_before hlt
    obtain ⟨-, rfl⟩ := h'.unique hvisit
    simp only [Flags.raised, Bool.or_eq_false_iff] at hraised
    simpa [status, State.flags] using hraised.2

/-- The norms of finite residuals on the way of a run are finite. -/
def NormsFinite (newton : Newton (Flushed α)) (system : System (Flushed α) n)
    (y₀ : Vector (Flushed α) n) : Prop :=
  ∀ k y s f, Visits newton system y₀ k y s → system.residualVector y = .ok f →
    Vec.allFinite f = true → Scalar.isFinite (Vec.norm f) = true

/-- At and after the place of a restart the new run reads the flags of the old one. -/
theorem Visits.status_since (h : Visits newton system y₀ j z t) (h' : Visits newton system y₀ k y s)
    (hj : j ≤ k) (hr : newton.rtol = 0 ∨ newton.rtol = -0)
    (hfin : NormsFinite newton system y₀) :
    newton.status (s.since newton.machine j t.norm) = newton.status s := by
  suffices hc : (newton.status (s.since newton.machine j t.norm)).converged =
      (newton.status s).converged by
    have hflags : newton.status (s.since newton.machine j t.norm) = { newton.status s with
        converged := (newton.status (s.since newton.machine j t.norm)).converged } := rfl
    rw [hflags, hc]
  cases hs : Vec.allFinite s.residual with
  | true =>
    have hnorm : ∀ {i z t}, i ≤ k → Visits newton system y₀ i z t →
        Scalar.isFinite t.norm = true := by
      intro i z t hi hvisit
      have ht := tracks_walk hvisit.walk
      rw [ht.norm]
      exact hfin i z t t.residual hvisit ht.residual (h'.allFinite_before hs hi hvisit)
    obtain ⟨s₀, h₀⟩ := h'.exists_init
    have hstart : Visits newton system y₀ 0 y₀ s₀ := .start h₀ h'.checkTolerances
    have hinit : s.initialNorm = s₀.norm := by
      obtain ⟨f₀, hf₀, hs₀⟩ := (tracks_walk h'.walk).initialNorm
      have ht₀ := tracks_walk hstart.walk
      obtain rfl := Except.ok.inj (hf₀.symm.trans ht₀.residual)
      rw [hs₀, ht₀.norm]
    rw [converged_eq hr, converged_eq hr, hinit, hnorm (Nat.zero_le k) hstart]
    show (Scalar.isFinite t.norm && _) = _
    rw [hnorm hj h]
    rfl
  | false =>
    have hdown : ∀ x, Scalar.lt s.norm x = false := by
      intro x
      refine Bool.of_not_eq_true fun hlt => ?_
      rw [(tracks_walk h'.walk).norm] at hlt
      rw [Flushed.allFinite_of_lt_norm hlt] at hs
      cases hs
    exact (hdown _).trans (hdown _).symm

/-! ## Lockstep -/

/-- The state at the place of a restart, as the new run has it, is the one at its start. -/
theorem Visits.value_init_since (h : Visits newton system y₀ j y s) (hs : s.stepFailed = false) :
    (newton.init system y).value = .ok (s.since newton.machine j s.norm) := by
  obtain ⟨s₀, h₀⟩ := h.exists_init
  obtain ⟨hn, -, -, hshape, hmask, -⟩ := value_init_eq_ok_iff.1 h₀
  have ht := tracks_walk h.walk
  refine value_init_eq_ok_iff.2 ⟨hn, s.residual, ht.residual, hshape, hmask, ?_⟩
  unfold State.since State.initial
  rw [ht.steps, hs, ht.norm, Machine.wrap_counted_sub (le_refl j), Nat.sub_self,
    Machine.counted_zero]

/-- A step of the new run is one of the old run. -/
theorem value_step_since (j : Nat) (m : Flushed α) (y : Vector (Flushed α) n)
    (s : State (Flushed α) n) (budget : Nat) :
    ((newton.withBudget budget).step system y (s.since newton.machine j m)).value =
      (newton.step system y s).value.map
        (Prod.map id fun s => s.since newton.machine j m) := by
  refine value_step_of_move id (fun s => s.since newton.machine j m) id ?_ (fun _ => rfl)
    (s.moved_since newton.machine j m)
  rw [map_id_eq]
  rfl

/-- As long as a run has budget left, it has made fewer steps than its budget. -/
def CountsAlong (newton : Newton (Flushed α)) (system : System (Flushed α) n)
    (y₀ : Vector (Flushed α) n) : Prop :=
  ∀ k y s, Visits newton system y₀ k y s → (newton.status s).raised = false →
    newton.machine.counted k < newton.maxSteps → k < newton.maxSteps

theorem Visits.ending_since (h : Visits newton system y₀ j z t)
    (h' : Visits newton system y₀ k y s) (hj : j ≤ k) (hr : newton.rtol = 0 ∨ newton.rtol = -0)
    (hfin : NormsFinite newton system y₀) (budget : Nat) :
    (newton.withBudget budget).ending y (s.since newton.machine j t.norm) =
      (newton.ending y s).since newton.machine j := by
  unfold Newton.ending
  rw [status_withBudget, h.status_since h' hj hr hfin]
  rfl

/-- From the place of a restart on, the run with the budget that is left is in lockstep with the
old one, if this has made no more steps than its budget. -/
theorem Visits.lockstep_since (h : Visits newton system y₀ j z t)
    (hr : newton.rtol = 0 ∨ newton.rtol = -0) (hfin : NormsFinite newton system y₀)
    (hcounts : newton.CountsAlong system y₀) :
    Lockstep newton system y₀ j (newton.withBudget (newton.maxSteps - j)) system id
      (fun s => s.since newton.machine j t.norm) (fun r => r.since newton.machine j) where
  status hj h' := h.status_since h' hj hr hfin
  budget {k y s} hj h' hraised := by
    show ((newton.maxSteps - j : Nat) : Int) ≤ newton.machine.integers.wrap (s.steps - j) ↔ _
    rw [h'.steps, Machine.wrap_counted_sub hj]
    constructor
    · intro hused
      by_contra hnot
      have hk := hcounts k y s h' hraised (Int.lt_of_not_ge hnot)
      have hshown : newton.machine.counted (k - j) ≤ (k - j : Nat) :=
        Machine.counted_le_self (k - j)
      omega
    · intro hused
      obtain rfl := h'.eq_maxSteps hused
      have hc : newton.machine.Counts newton.maxSteps :=
        Int.le_trans hused (Machine.counted_le newton.maxSteps)
      rw [Machine.counted_of_counts (hc.mono (Nat.sub_le newton.maxSteps j))]
  ending hj h' := h.ending_since h' hj hr hfin _
  step _ _ _ _ := value_step_since j t.norm _ _ _

/-- A run that is taken up at one of its iterates, after a step that could be used and with the
budget that is left, ends as it would have, with as many steps less. -/
theorem Visits.value_run_since (h : Visits newton system y₀ j y s) (hs : s.stepFailed = false)
    (hr : newton.rtol = 0 ∨ newton.rtol = -0) (hfin : NormsFinite newton system y₀)
    (hcounts : newton.CountsAlong system y₀) :
    ((newton.withBudget (newton.maxSteps - j)).run system y).value =
      (newton.run system y₀).value.map fun r => r.since newton.machine j := by
  rw [value_run_withBudget (h.value_init_since hs) h.checkTolerances, h.value_run]
  exact (h.lockstep_since hr hfin hcounts).value_iterate (Nat.le_refl j) h

/-! ## Restarts at the end -/

/-- The new run visits its start. -/
theorem Visits.start_since (h : Visits newton system y₀ j y s) (hs : s.stepFailed = false)
    (budget : Nat) : Visits (newton.withBudget budget) system y 0 y
      (s.since newton.machine j s.norm) :=
  .start (h.value_init_since hs) h.checkTolerances

/-- Taken up where a flag is up after a step that could be used, a run with any budget stops at
once. -/
theorem Visits.value_run_since_last (h : Visits newton system y₀ k y s)
    (hs : s.stepFailed = false) (hraised : (newton.status s).raised = true)
    (hr : newton.rtol = 0 ∨ newton.rtol = -0) (hfin : NormsFinite newton system y₀)
    (budget : Nat) : ((newton.withBudget budget).run system y).value =
      .ok ((newton.ending y s).since newton.machine k) := by
  have hup : ((newton.withBudget budget).status (s.since newton.machine k s.norm)).raised =
      true := by
    rw [status_withBudget, h.status_since h (Nat.le_refl k) hr hfin, hraised]
  rw [(h.start_since hs budget).value_run_of_last (Or.inr hup),
    h.ending_since h (Nat.le_refl k) hr hfin]

/-- Taken up after a step that could not be used, which is where it was before this step, a run with
any budget but none fails once more. -/
theorem Visits.value_run_since_failed (h : Visits newton system y₀ (k + 1) y s)
    (hs : s.stepFailed = true) (hr : newton.rtol = 0 ∨ newton.rtol = -0)
    (hfin : NormsFinite newton system y₀) (budget : Nat) :
    ((newton.withBudget (budget + 1)).run system y).value =
      .ok ((newton.ending y s).since newton.machine k) := by
  obtain ⟨j, t, hj, hbefore, rfl, hraised, -⟩ := h.of_stepFailed hs
  obtain rfl : k = j := Nat.succ.inj hj
  have ht : t.stepFailed = false := by
    simp only [Flags.raised, Bool.or_eq_false_iff] at hraised
    exact hraised.1.2
  have hdown : ((newton.withBudget (budget + 1)).status
      (t.since newton.machine k t.norm)).raised = false := by
    rw [status_withBudget, hbefore.status_since hbefore (Nat.le_refl k) hr hfin, hraised]
  have hstep : ((newton.withBudget (budget + 1)).step system y
      (t.since newton.machine k t.norm)).value =
        .ok (y, (t.failed newton.machine).since newton.machine k t.norm) := by
    rw [value_step_since, ← walk_succ_of_ok hbefore.walk, h.walk]
    rfl
  have hup : ((newton.withBudget (budget + 1)).status
      ((t.failed newton.machine).since newton.machine k t.norm)).raised = true := by
    simp [Flags.raised, status, State.flags, State.since, State.failed]
  have hbudget : (newton.withBudget (budget + 1)).machine.counted 0 <
      (newton.withBudget (budget + 1)).maxSteps := by
    rw [Machine.counted_zero]
    exact Int.ofNat_lt.2 (Nat.succ_pos budget)
  have hnext := (hbefore.start_since ht (budget + 1)).step hbudget hdown hstep
  rw [hnext.value_run_of_last (Or.inr hup),
    hbefore.ending_since h (Nat.le_succ k) hr hfin]

/-- Where a run ends in success or at a residual that is not finite, a flag is up, and the last
step could be used. -/
theorem Visits.raised_of_outcome (h : Visits newton system y₀ k y s)
    (ho : (newton.ending y s).outcome = .success ∨ (newton.ending y s).outcome = .nonFinite) :
    s.stepFailed = false ∧ (newton.status s).raised = true := by
  rw [outcome_ending] at ho
  cases hs : s.stepFailed with
  | true =>
    have hc : (newton.status s).converged = false := by
      refine Bool.of_not_eq_true fun hc => ?_
      have hboth := h.exclusive .success .singularJacobian hc hs
      cases hboth
    rw [hc, hs] at ho
    rcases ho with ho | ho <;> cases ho
  | false =>
    refine ⟨rfl, ?_⟩
    rw [hs] at ho
    unfold Flags.raised
    cases hc : (newton.status s).converged with
    | true => rfl
    | false =>
      have hn : (newton.status s).nonFinite = !Vec.allFinite s.residual := rfl
      rw [hc] at ho
      rw [hn]
      cases hf : Vec.allFinite s.residual with
      | true =>
        rw [hf] at ho
        rcases ho with ho | ho <;> cases ho
      | false => exact Bool.or_true _

/-- A run that has made no more steps than its budget counts them. -/
theorem Visits.countsAlong (h : Visits newton system y₀ k y s)
    (hlast : newton.maxSteps ≤ newton.machine.counted k ∨ (newton.status s).raised = true)
    (hk : k ≤ newton.maxSteps) : newton.CountsAlong system y₀ := fun _ _ _ h' hraised hbudget =>
  Nat.lt_of_lt_of_le ((h.lt_iff hlast h').2 ⟨hbudget, hraised⟩) hk

/-- Without a relative tolerance, and where the norms of finite residuals are finite, a run that
ends within its budget can be taken up at any iterate that it has after usable steps only, with
the budget that is left : value, outcome and norm are the same, and the steps are as many less.
In particular, taken up at its value with any budget, a run that ended in success or at a
residual that is not finite stops at once, and one that ended for a singular Jacobian fails
after one step, if it may take one. A run ends within its budget if the counter can reach
this, and then it shows the number of steps. -/
theorem restart_agrees_with_run {solution : Solution (Flushed α) n}
    (hr : newton.rtol = 0 ∨ newton.rtol = -0)
    (hrun : (newton.run system y₀).value = .ok solution)
    (hfin : NormsFinite newton system y₀) :
    (∃ K, solution.steps = newton.machine.counted K ∧
      (newton.machine.Counts newton.maxSteps → K ≤ newton.maxSteps ∧ solution.steps = K) ∧
      ∀ j, K ≤ newton.maxSteps → j ≤ newton.usableSteps system y₀ K →
        j ≤ K ∧ ∃ y s, Visits newton system y₀ j y s ∧
          ((newton.withBudget (newton.maxSteps - j)).run system y).value =
            .ok { solution with steps := newton.machine.counted (K - j) }) ∧
    (solution.outcome = .success ∨ solution.outcome = .nonFinite → ∀ budget,
      ((newton.withBudget budget).run system solution.value).value =
        .ok { solution with steps := 0 }) ∧
    (solution.outcome = .singularJacobian → ∀ budget,
      ((newton.withBudget (budget + 1)).run system solution.value).value =
        .ok { solution with steps := 1 }) := by
  obtain ⟨K, s, hlast, hend, hstop⟩ := exists_visits_of_run hrun
  have hsteps := hlast.steps_of_ending hend
  have hsince : ∀ j ≤ K, solution.since newton.machine j =
      { solution with steps := newton.machine.counted (K - j) } := by
    intro j hj
    unfold Solution.since
    rw [hsteps, Machine.wrap_counted_sub hj]
  have houtcome : solution.outcome = (newton.ending solution.value s).outcome :=
    (congrArg Solution.outcome hend).symm
  refine ⟨⟨K, hsteps, fun hc => ?_, fun j hK hj => ?_⟩, fun ho budget => ?_, fun ho budget => ?_⟩
  · have hK := hlast.le_maxSteps hc
    exact ⟨hK, hsteps.trans (Machine.counted_of_counts (hc.mono hK))⟩
  · obtain ⟨hle, y, t, hvisit, ht⟩ := hlast.exists_usable hj
    refine ⟨hle, y, t, hvisit, ?_⟩
    rw [hvisit.value_run_since ht hr hfin (hlast.countsAlong hstop hK), hrun, ← hsince j hle]
    rfl
  · obtain ⟨hs, hraised⟩ := hlast.raised_of_outcome (houtcome ▸ ho)
    rw [hlast.value_run_since_last hs hraised hr hfin budget, hend, hsince K (Nat.le_refl K),
      Nat.sub_self, Machine.counted_zero]
  · have hs : s.stepFailed = true := stepFailed_of_outcome_ending (houtcome ▸ ho)
    obtain ⟨k, -, rfl, -⟩ := hlast.of_stepFailed hs
    rw [hlast.value_run_since_failed hs hr hfin budget, hend, hsince k (Nat.le_succ k),
      Nat.add_sub_cancel_left, Machine.counted_one]

end Formats

/-- From three, in the default configuration, the run takes four steps, all of them usable, and
taken up after the second one it takes two. -/
theorem restart_squareEquation :
    ((Solver.standard.newton Binary64).rtol = 0 ∨ (Solver.standard.newton Binary64).rtol = -0) ∧
      NormsFinite (Solver.standard.newton Binary64) squareEquation #v[⟨3⟩] ∧
      ∃ solution y s,
        ((Solver.standard.newton Binary64).run squareEquation #v[⟨3⟩]).value = .ok solution ∧
        solution.steps = 4 ∧
        Visits (Solver.standard.newton Binary64) squareEquation #v[⟨3⟩] 2 y s ∧
        (((Solver.standard.newton Binary64).withBudget 98).run squareEquation y).value =
          .ok { solution with steps := 2 } := by
  have hwalk : ∀ k < 5, ((Solver.standard.newton Binary64).walk squareEquation #v[⟨3⟩]
      k).toOption.any (fun p => Scalar.isFinite p.2.norm && (k != 4 ||
        ((Solver.standard.newton Binary64).status p.2).raised)) = true := by decide +kernel
  have hfin : NormsFinite (Solver.standard.newton Binary64) squareEquation #v[⟨3⟩] := by
    intro k y s f hvisit hf _
    have hk : k < 5 := by
      by_contra hlarge
      obtain ⟨z, t, hbefore, -, hraised⟩ := hvisit.exists_before (j := 4) (by omega)
      have h4 := hwalk 4 (by omega)
      rw [hbefore.walk] at h4
      simp [Except.toOption, hraised] at h4
    have hs := hwalk k hk
    rw [hvisit.walk] at hs
    have ht := tracks_walk hvisit.walk
    obtain rfl := Except.ok.inj (hf.symm.trans ht.residual)
    rw [← ht.norm]
    exact (Bool.and_eq_true_iff.1 hs).1
  have heval : ((Solver.standard.newton Binary64).runFor squareEquation 5
      #v[⟨3⟩]).map (·.toOption.map Solution.steps) = some (some 4) := by decide +kernel
  have husable : (Solver.standard.newton Binary64).usableSteps squareEquation #v[⟨3⟩] 4 = 4 := by
    decide +kernel
  obtain ⟨solution, hrun, hsteps⟩ := exists_run_of_runFor heval
  obtain ⟨⟨K, -, hcounts, hrestarts⟩, -⟩ := restart_agrees_with_run (Or.inl rfl) hrun hfin
  obtain ⟨hK, hshown⟩ := hcounts Solver.counts_standard
  obtain rfl : K = 4 := Int.ofNat.inj (hshown.symm.trans hsteps)
  obtain ⟨-, y, s, hvisit, hrestart⟩ := hrestarts 2 hK (by rw [husable]; decide)
  exact ⟨Or.inl rfl, hfin, solution, y, s, hrun, hsteps, hvisit, hrestart⟩

end Newton

end Stationary
