import Stationary.Proofs.Stopping

/-!
# Loop heads

A run looks at the flags at every head of its loop. `Newton.Visits` are the places where it
does : the start, and after any place where no flag is up and the counter is below the budget
the place one step further. Unlike a walk, which goes on whatever the flags say, these are the
places a run depends on.

The rest of a run from such a place is the loop (`Newton.Visits.value_run`). So a run that has a
solution has it from a place it visits (`Newton.exists_visits_of_run`), and it fails in one of
four ways : there is no start, the tolerances cannot be compared with, a step fails from a place
it visits, or it goes on for ever (`Newton.value_run_eq_error_iff`). The last does not happen if
the counter can reach the budget.
-/

set_option linter.unusedSectionVars false

namespace Stationary

namespace Newton

variable {α : Type} {n : Nat} [Scalar α] [Decomposes α] {newton : Newton α}
  {system : System α n} {y₀ y y' : Vector α n} {s₀ s s' : State α n} {k : Nat}

open Journaled

/-- A run from `y₀` looks at the flags of the state `s` at the iterate `y` after `k` steps. -/
inductive Visits (newton : Newton α) (system : System α n) (y₀ : Vector α n) :
    Nat → Vector α n → State α n → Prop
  | start {s₀ : State α n} : (newton.init system y₀).value = .ok s₀ →
      newton.checkTolerances = .ok () → Visits newton system y₀ 0 y₀ s₀
  | step {k : Nat} {y y' : Vector α n} {s s' : State α n} : Visits newton system y₀ k y s →
      newton.machine.counted k < newton.maxSteps → (newton.status s).raised = false →
      (newton.step system y s).value = .ok (y', s') → Visits newton system y₀ (k + 1) y' s'

namespace Visits

/-- The places that a run visits are on its walk. -/
theorem walk (h : Visits newton system y₀ k y s) : newton.walk system y₀ k = .ok (y, s) := by
  induction h with
  | start h₀ _ => exact walk_zero_eq_ok_iff.2 ⟨rfl, h₀⟩
  | step _ _ _ hstep ih => rw [walk_succ_of_ok ih, hstep]

/-- The counter shows the number of steps. -/
theorem steps (h : Visits newton system y₀ k y s) : s.steps = newton.machine.counted k :=
  (tracks_walk h.walk).steps

/-- The run has gone by all places before. -/
theorem goesBy (h : Visits newton system y₀ k y s) {j : Nat} (hj : j < k) :
    newton.GoesBy system y₀ j := by
  induction h with
  | start _ _ => omega
  | step h hk hraised _ ih =>
    rcases Nat.eq_or_lt_of_le (Nat.le_of_lt_succ hj) with rfl | hj
    · exact ⟨_, _, h.walk, hraised, hk⟩
    · exact ih hj

/-- A counter that can reach the budget has not gone by it. -/
theorem le_maxSteps (h : Visits newton system y₀ k y s)
    (hc : newton.machine.Counts newton.maxSteps) : k ≤ newton.maxSteps :=
  le_maxSteps_of_goesBy hc fun _ => h.goesBy

/-- A counter that can reach the budget shows the number of steps. -/
theorem counted_eq (h : Visits newton system y₀ k y s)
    (hc : newton.machine.Counts newton.maxSteps) : newton.machine.counted k = k :=
  Machine.counted_of_counts (hc.mono (h.le_maxSteps hc))

/-- Where the counter has reached the budget, there have been as many steps. -/
theorem eq_maxSteps (h : Visits newton system y₀ k y s)
    (hk : newton.maxSteps ≤ newton.machine.counted k) : k = newton.maxSteps :=
  eq_maxSteps_of_goesBy (fun _ => h.goesBy) hk

theorem checkTolerances (h : Visits newton system y₀ k y s) :
    newton.checkTolerances = .ok () := by
  induction h with
  | start _ ht => exact ht
  | step _ _ _ _ ih => exact ih

theorem exists_init (h : Visits newton system y₀ k y s) :
    ∃ s₀, (newton.init system y₀).value = .ok s₀ := by
  induction h with
  | start h₀ _ => exact ⟨_, h₀⟩
  | step _ _ _ _ ih => exact ih

/-- The policy has a mask, since the start asks for one. -/
theorem exists_mask (h : Visits newton system y₀ k y s) :
    ∃ mask, maskFor newton.machine newton.projection n = .ok mask := by
  obtain ⟨s₀, h₀⟩ := h.exists_init
  obtain ⟨-, -, -, -, hmask, -⟩ := value_init_eq_ok_iff.1 h₀
  exact hmask

/-- After as many steps a run visits one place only. -/
theorem unique (h : Visits newton system y₀ k y s) (h' : Visits newton system y₀ k y' s') :
    y = y' ∧ s = s' :=
  Prod.mk.inj (Except.ok.inj (h.walk.symm.trans h'.walk))

/-- The rest of a run is the loop. -/
theorem value_run (h : Visits newton system y₀ k y s) :
    (newton.run system y₀).value = (newton.iterate system y s).value := by
  induction h with
  | start h₀ ht =>
    rw [Newton.value_run h₀, ht]
    rfl
  | step h hk hraised hstep ih =>
    rw [← h.steps] at hk
    rw [ih, value_iterate_of_step hraised hk, hstep]
    rfl

/-- A run stops at a place where the budget is used up or a flag is up, and reports it. -/
theorem value_run_of_last (h : Visits newton system y₀ k y s)
    (hlast : newton.maxSteps ≤ newton.machine.counted k ∨ (newton.status s).raised = true) :
    (newton.run system y₀).value = .ok (newton.ending y s) := by
  rw [← h.steps] at hlast
  rw [h.value_run, value_iterate_of_last hlast]

/-- A run ends where it has converged. -/
theorem value_run_of_converged (h : Visits newton system y₀ k y s)
    (hconverged : (newton.status s).converged = true) :
    ∃ solution, (newton.run system y₀).value = .ok solution ∧ solution.outcome = .success ∧
      solution.steps = newton.machine.counted k ∧ solution.value = y := by
  refine ⟨_, h.value_run_of_last (Or.inr ?_), ?_, h.steps, rfl⟩
  · simp [Flags.raised, hconverged]
  · rw [outcome_ending, if_pos hconverged]

/-- A run fails where a step from a place it visits does. -/
theorem value_run_of_error {e : Failure} (h : Visits newton system y₀ k y s)
    (hk : newton.machine.counted k < newton.maxSteps) (hraised : (newton.status s).raised = false)
    (hstep : (newton.step system y s).value = .error e) :
    (newton.run system y₀).value = .error e := by
  rw [← h.steps] at hk
  rw [h.value_run, value_iterate_of_step hraised hk, hstep]
  rfl

end Visits

/-- The places of a walk that a run goes by, and the next one, are visited. -/
theorem visits_of_walk (h₀ : (newton.init system y₀).value = .ok s₀)
    (ht : newton.checkTolerances = .ok ())
    (hbefore : ∀ j, j < k → newton.GoesBy system y₀ j)
    (h : newton.walk system y₀ k = .ok (y, s)) : Visits newton system y₀ k y s := by
  induction k generalizing y s with
  | zero =>
    obtain ⟨rfl, h⟩ := walk_zero_eq_ok_iff.1 h
    exact .start h ht
  | succ k ih =>
    obtain ⟨z, t, hz, hstep⟩ := walk_succ_eq_ok_iff.1 h
    have hvisit : Visits newton system y₀ k z t := ih (fun j hj => hbefore j (by omega)) hz
    obtain ⟨z', t', hz', hraised, hk⟩ := hbefore k (Nat.lt_succ_self k)
    obtain ⟨rfl, rfl⟩ := Prod.mk.inj (Except.ok.inj (hz.symm.trans hz'))
    exact .step hvisit hk hraised hstep

/-! ## The three ways of a run from its start -/

/-- A run goes on for ever : there is no end to the places it visits, and it leaves them all. -/
def GoesOn (newton : Newton α) (system : System α n) (y₀ : Vector α n) : Prop :=
  ∀ k, ∃ y s, Visits newton system y₀ k y s ∧ newton.machine.counted k < newton.maxSteps ∧
    (newton.status s).raised = false

/-- A run whose counter can reach the budget does not go on for ever. -/
theorem not_goesOn (hc : newton.machine.Counts newton.maxSteps) :
    ¬newton.GoesOn system y₀ := by
  intro h
  obtain ⟨-, -, -, hbudget, -⟩ := h newton.maxSteps
  rw [Machine.counted_of_counts hc] at hbudget
  exact Int.lt_irrefl _ hbudget

/-- A run from an admissible start with tolerances that fit visits a place where it stops, or
one from which its next step fails, or it goes on for ever and has no end. -/
theorem exists_last_visit (h₀ : (newton.init system y₀).value = .ok s₀)
    (ht : newton.checkTolerances = .ok ()) :
    (∃ k y s, Visits newton system y₀ k y s ∧
      (newton.maxSteps ≤ newton.machine.counted k ∨ (newton.status s).raised = true)) ∨
    (∃ k y s e, Visits newton system y₀ k y s ∧ newton.machine.counted k < newton.maxSteps ∧
      (newton.status s).raised = false ∧ (newton.step system y s).value = .error e) ∨
    newton.GoesOn system y₀ ∧ (newton.run system y₀).value = .error .endless := by
  rcases run_stops h₀ ht with ⟨hall, hend⟩ | ⟨K, hbefore, ⟨z, t, hz, hlast, -⟩ | ⟨e, he, -⟩⟩
  · refine Or.inr (Or.inr ⟨fun k => ?_, hend⟩)
    obtain ⟨z, t, hz, hraised, hk⟩ := hall k
    exact ⟨z, t, visits_of_walk h₀ ht (fun j _ => hall j) hz, hk, hraised⟩
  · refine Or.inl ⟨K, z, t, visits_of_walk h₀ ht hbefore hz, hlast.imp_left ?_⟩
    rintro ⟨rfl, hc⟩
    exact Int.le_of_eq (Machine.counted_of_counts hc).symm
  · cases K with
    | zero =>
      rw [walk_zero_eq_ok_iff.2 ⟨rfl, h₀⟩] at he
      cases he
    | succ K =>
      obtain ⟨z, t, hz, hraised, hk⟩ := hbefore K (Nat.lt_succ_self K)
      rw [walk_succ_of_ok hz] at he
      have hvisit : Visits newton system y₀ K z t :=
        visits_of_walk h₀ ht (fun j hj => hbefore j (by omega)) hz
      exact Or.inr (Or.inl ⟨K, z, t, e, hvisit, hk, hraised, he⟩)

/-- A run reports the place where it stops, and its counter shows the steps up to there. -/
theorem exists_visits_of_run {solution : Solution α n}
    (h : (newton.run system y₀).value = .ok solution) :
    ∃ k s, Visits newton system y₀ k solution.value s ∧
      newton.ending solution.value s = solution ∧
      (newton.maxSteps ≤ newton.machine.counted k ∨ (newton.status s).raised = true) := by
  have hrun := h
  unfold run at hrun
  rw [value_bind] at hrun
  obtain ⟨s₀, h₀, hrest⟩ := bind_eq_ok_iff.1 hrun
  rw [value_bind, value_ofExcept, mapError_id] at hrest
  obtain ⟨_, ht, -⟩ := bind_eq_ok_iff.1 hrest
  rcases exists_last_visit h₀ ht with
    ⟨k, y, s, hvisit, hlast⟩ | ⟨k, y, s, e, hvisit, hk, hraised, he⟩ | ⟨-, hend⟩
  · rw [hvisit.value_run_of_last hlast] at h
    obtain rfl := Except.ok.inj h
    exact ⟨k, s, hvisit, rfl, hlast⟩
  · rw [hvisit.value_run_of_error hk hraised he] at h
    cases h
  · rw [hend] at h
    cases h

/-- The solution of a run counts the steps up to the place that it reports. -/
theorem Visits.steps_of_ending {solution : Solution α n} (h : Visits newton system y₀ k y s)
    (hend : newton.ending y s = solution) : solution.steps = newton.machine.counted k := by
  rw [← hend]
  exact h.steps

/-- On a system with values of the right shapes a run that does not go on for ever has a solution,
if tolerances and pivot threshold can be used. -/
theorem exists_solution_of_not_goesOn (hsq : system.IsSquare)
    (h₀ : (newton.init system y₀).value = .ok s₀) (ht : newton.checkTolerances = .ok ())
    (hp : newton.checkPivots = .ok ()) (hon : ¬newton.GoesOn system y₀) :
    ∃ solution, (newton.run system y₀).value = .ok solution := by
  rcases exists_last_visit h₀ ht with
    ⟨k, y, s, hvisit, hlast⟩ | ⟨k, y, s, e, hvisit, -, -, he⟩ | ⟨hgoes, -⟩
  · exact ⟨_, hvisit.value_run_of_last hlast⟩
  · obtain ⟨z, t, hnext⟩ := exists_walk hsq hp h₀ (k + 1)
    rw [walk_succ_of_ok hvisit.walk, he] at hnext
    cases hnext
  · exact absurd hgoes hon

/-- A run with a budget that the counter can reach has a solution, and any other run has one or
goes on for ever. -/
theorem exists_solution_or_goesOn (hsq : system.IsSquare)
    (h₀ : (newton.init system y₀).value = .ok s₀) (ht : newton.checkTolerances = .ok ())
    (hp : newton.checkPivots = .ok ()) :
    (∃ solution, (newton.run system y₀).value = .ok solution) ∨
      newton.GoesOn system y₀ ∧ ¬newton.machine.Counts newton.maxSteps := by
  by_cases hon : newton.GoesOn system y₀
  · exact Or.inr ⟨hon, fun hc => not_goesOn hc hon⟩
  · exact Or.inl (exists_solution_of_not_goesOn hsq h₀ ht hp hon)

/-- A run that goes on for ever has no end. -/
theorem value_run_of_goesOn (h : newton.GoesOn system y₀) :
    (newton.run system y₀).value = .error .endless := by
  obtain ⟨y, s, hstart, -, -⟩ := h 0
  obtain ⟨s₀, h₀⟩ := hstart.exists_init
  have huniq : ∀ {k y s}, Visits newton system y₀ k y s →
      newton.machine.counted k < newton.maxSteps ∧ (newton.status s).raised = false := by
    intro k y s hvisit
    obtain ⟨z, t, hvisit', hk, hraised⟩ := h k
    obtain ⟨rfl, rfl⟩ := hvisit.unique hvisit'
    exact ⟨hk, hraised⟩
  rcases exists_last_visit h₀ hstart.checkTolerances with
    ⟨k, y, s, hvisit, hlast⟩ | ⟨k, y, s, e, hvisit, -, -, he⟩ | ⟨-, hend⟩
  · obtain ⟨hk, hraised⟩ := huniq hvisit
    rw [hraised] at hlast
    rcases hlast with hlast | hlast
    · exact absurd hlast (Int.not_le.2 hk)
    · cases hlast
  · obtain ⟨z, t, hnext, -, -⟩ := h (k + 1)
    rw [← walk_succ_of_ok hvisit.walk, hnext.walk] at he
    cases he
  · exact hend

/-- A run fails if its start does, if the tolerances cannot be compared with, if a step from a
place that it visits and has to leave does, or if it goes on for ever, and in no other way. -/
theorem value_run_eq_error_iff {e : Failure} : (newton.run system y₀).value = .error e ↔
    (newton.init system y₀).value = .error e ∨
    ((∃ s₀, (newton.init system y₀).value = .ok s₀) ∧ newton.checkTolerances = .error e) ∨
    (∃ k y s, Visits newton system y₀ k y s ∧ newton.machine.counted k < newton.maxSteps ∧
      (newton.status s).raised = false ∧ (newton.step system y s).value = .error e) ∨
    newton.GoesOn system y₀ ∧ e = .endless := by
  constructor
  · intro h
    cases h₀ : (newton.init system y₀).value with
    | error e' =>
      unfold run at h
      rw [value_bind, h₀] at h
      obtain rfl : e' = e := Except.error.inj h
      exact Or.inl rfl
    | ok s₀ =>
      cases ht : newton.checkTolerances with
      | error e' =>
        rw [value_run h₀, ht] at h
        obtain rfl : e' = e := Except.error.inj h
        exact Or.inr (Or.inl ⟨⟨s₀, rfl⟩, rfl⟩)
      | ok _ =>
        refine Or.inr (Or.inr ?_)
        rcases exists_last_visit h₀ ht with
          ⟨k, y, s, hvisit, hlast⟩ | ⟨k, y, s, e', hvisit, hk, hraised, he⟩ | ⟨hon, hend⟩
        · rw [hvisit.value_run_of_last hlast] at h
          cases h
        · rw [hvisit.value_run_of_error hk hraised he] at h
          obtain rfl := Except.error.inj h
          exact Or.inl ⟨k, y, s, hvisit, hk, hraised, he⟩
        · rw [hend] at h
          obtain rfl := Except.error.inj h
          exact Or.inr ⟨hon, rfl⟩
  · rintro (h | ⟨⟨s₀, h₀⟩, ht⟩ | ⟨k, y, s, hvisit, hk, hraised, he⟩ | ⟨hon, rfl⟩)
    · unfold run
      rw [value_bind, h]
      rfl
    · rw [value_run h₀, ht]
      rfl
    · exact hvisit.value_run_of_error hk hraised he
    · exact value_run_of_goesOn hon

end Newton

end Stationary
