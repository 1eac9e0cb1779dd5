import Stationary.Proofs.Lockstep

/-!
# What a run evaluates

The journal of a run names every point where the residual or the Jacobian was asked for. Without
its notes (`Journal.evaluations`) it is an alternation : the residual at the start, and for
every step the Jacobian at the old iterate and the residual at the new one
(`Newton.Visits.evaluations_run`, by induction on the places that the run visits). Nothing is
asked for twice at the same place, and no Jacobian is asked for at the last one.

Nor does a run depend on anything else. A second system that starts, and has the values of the
first one where the first run asks for them, is in lockstep with it
(`Newton.Visits.lockstep_of_agrees`). What the two are elsewhere does not matter.
-/

set_option linter.unusedSectionVars false

namespace Stationary

variable {α β γ : Type} {n : Nat}

open Journaled

/-! ## Journals without notes -/

/-- The evaluations that a journal names, in order. -/
def Journal.evaluations (j : Journal α n) : List (Event α n) :=
  j.toList.filter fun | .note _ => false | _ => true

theorem Journal.evaluations_append (j j' : Journal α n) :
    Journal.evaluations (j ++ j') = j.evaluations ++ j'.evaluations := by
  unfold Journal.evaluations
  rw [Array.toList_append, List.filter_append]

/-- The residual and the Jacobian at the first `k` of some points in turn, and the residual at the
next one. -/
def alternation (y : Nat → Vector α n) : Nat → List (Event α n)
  | 0 => [.residual (y 0)]
  | k + 1 => alternation y k ++ [.jacobian (y k), .residual (y (k + 1))]

namespace Journaled

/-- What a computation evaluates. -/
def evaluations (m : Journaled α n β) : List (Event α n) :=
  m.written.evaluations

@[simp] theorem evaluations_pure (b : β) : (pure b : Journaled α n β).evaluations = [] :=
  rfl

@[simp] theorem evaluations_ofExcept {ε : Type} (cause : ε → Failure) (r : Except ε β) :
    (ofExcept cause r : Journaled α n β).evaluations = [] := by
  unfold evaluations
  rw [written_ofExcept]
  rfl

theorem value_ofExcept_of_ok {ε : Type} {cause : ε → Failure} {r : Except ε β} {b : β}
    (h : r = .ok b) : (ofExcept cause r : Journaled α n β).value = .ok b := by
  rw [h]
  rfl

@[simp] theorem evaluations_note (t : Note α) :
    (record (.note t) : Journaled α n Unit).evaluations = [] :=
  rfl

/-- A sequence whose first part has a result evaluates what its parts do. -/
theorem evaluations_bind {m : Journaled α n β} {f : β → Journaled α n γ} {b : β} [Recording m]
    [∀ b, Recording (f b)] (h : m.value = .ok b) :
    (m >>= f).evaluations = m.evaluations ++ (f b).evaluations := by
  unfold evaluations
  rw [written_bind, h, Journal.evaluations_append]

end Journaled

namespace System

variable (system : System α n) {y : Vector α n}

theorem evaluations_residualAt (y : Vector α n) :
    (system.residualAt y).evaluations = [.residual y] := by
  rw [residualAt_eq, evaluations_bind (value_record _), evaluations_ofExcept]
  rfl

theorem evaluations_jacobianAt (y : Vector α n) :
    (system.jacobianAt y).evaluations = [.jacobian y] := by
  rw [jacobianAt_eq, evaluations_bind (value_record _), evaluations_ofExcept]
  rfl

/-- To look at the shape of the Jacobian is not to evaluate it. -/
theorem evaluations_checkJacobianShape : system.checkJacobianShape.evaluations = [] := by
  unfold checkJacobianShape
  split <;> split <;> rfl

end System

/-! ## The evaluations of a run -/

namespace Newton

section Evaluations

variable [Scalar α] {newton : Newton α} {system system' : System α n}
  {y₀ y y' z : Vector α n} {s₀ s s' t : State α n} {k K : Nat}

theorem evaluations_init (h : (newton.init system y).value = .ok s) :
    (newton.init system y).evaluations = [.residual y] := by
  obtain ⟨hn, f, hf, hshape, ⟨mask, hm⟩, -⟩ := value_init_eq_ok_iff.1 h
  rw [init_eq newton system y hn, evaluations_bind ((system.value_residualAt y).trans hf),
    evaluations_bind hshape, evaluations_bind (value_ofExcept_of_ok hm),
    system.evaluations_residualAt,
    system.evaluations_checkJacobianShape, evaluations_ofExcept, evaluations_pure]
  rfl

theorem evaluations_finish (outcome : Outcome) : (finish outcome y s).evaluations = [] := by
  unfold finish
  rw [evaluations_bind (value_record _), evaluations_note, evaluations_pure]
  rfl

variable [Decomposes α]

theorem evaluations_step (h : (newton.step system y s).value = .ok (y', s')) :
    (newton.step system y s).evaluations = [.jacobian y, .residual y'] := by
  obtain ⟨mask, A, d, f, hm, hA, hd, rfl, hf, -⟩ := value_step_eq_ok_iff.1 h
  rw [step_eq, evaluations_bind (value_ofExcept_of_ok hm),
    evaluations_bind ((system.value_jacobianAt y).trans hA),
    evaluations_bind (value_ofExcept_of_ok hd),
    evaluations_bind ((system.value_residualAt _).trans hf),
    evaluations_ofExcept, evaluations_ofExcept, system.evaluations_jacobianAt,
    system.evaluations_residualAt, evaluations_pure]
  rfl

theorem evaluations_atHead (s : State α n) : Journal.evaluations (atHead s #[]) = [] :=
  rfl

/-- At the end the loop evaluates nothing. -/
theorem evaluations_iterate_of_last
    (h : newton.maxSteps ≤ s.steps ∨ (newton.status s).raised = true) :
    (newton.iterate system y s).evaluations = [] := by
  unfold evaluations
  rw [written_iterate_of_last h, Journal.evaluations_append, evaluations_atHead, List.nil_append]
  exact evaluations_finish _

/-- Before the end the loop evaluates what the step does, and then what is left to evaluate. -/
theorem evaluations_iterate_of_step (hraised : (newton.status s).raised = false)
    (hsteps : s.steps < newton.maxSteps) (hstep : (newton.step system y s).value = .ok (y', s'))
    (hend : (newton.iterate system y' s').value ≠ .error .endless) :
    (newton.iterate system y s).evaluations =
      [.jacobian y, .residual y'] ++ (newton.iterate system y' s').evaluations := by
  rw [← evaluations_step hstep]
  unfold evaluations
  rw [written_iterate_of_step hraised hsteps hstep hend, Journal.evaluations_append,
    Journal.evaluations_append, evaluations_atHead, List.nil_append]

/-- The iterate after `k` steps from `y₀`, and `y₀` itself if there are no `k` steps. -/
def iterateAfter (newton : Newton α) (system : System α n) (y₀ : Vector α n) (k : Nat) :
    Vector α n :=
  match newton.walk system y₀ k with
  | .ok p => p.1
  | .error _ => y₀

theorem Visits.iterateAfter (h : Visits newton system y₀ k y s) :
    newton.iterateAfter system y₀ k = y := by
  unfold Newton.iterateAfter
  rw [h.walk]

/-- Up to a place that it visits a run with an end evaluates residual and Jacobian in turn, and
afterwards what the loop evaluates from there. -/
theorem Visits.evaluations_run (h : Visits newton system y₀ k y s)
    (hend : (newton.run system y₀).value ≠ .error .endless) :
    (newton.run system y₀).evaluations = alternation (newton.iterateAfter system y₀) k ++
      (newton.iterate system y s).evaluations := by
  induction h with
  | @start s₀ h₀ ht =>
    unfold run
    rw [evaluations_bind h₀, evaluations_bind (value_ofExcept_of_ok ht), evaluations_init h₀,
      evaluations_ofExcept, alternation, (Visits.start h₀ ht).iterateAfter]
    rfl
  | @step k y y' s s' h hk hraised hstep ih =>
    have hnext := h.step hk hraised hstep
    rw [hnext.value_run] at hend
    rw [← h.steps] at hk
    rw [ih, evaluations_iterate_of_step hraised hk hstep hend, alternation, h.iterateAfter,
      hnext.iterateAfter, List.append_assoc]

/-! ## Other systems with the same values -/

/-- A place before the last one is left by a step, and the next place is visited too. -/
theorem Visits.exists_step (hlast : Visits newton system y₀ K z t)
    (h : Visits newton system y₀ k y s) (hk : k < K) :
    ∃ y' s', (newton.step system y s).value = .ok (y', s') ∧
      Visits newton system y₀ (k + 1) y' s' := by
  obtain ⟨y', s', hnext⟩ : ∃ y' s', Visits newton system y₀ (k + 1) y' s' := by
    rcases Nat.eq_or_lt_of_le hk with rfl | hlt
    · exact ⟨z, t, hlast⟩
    · obtain ⟨y', s', hnext, -⟩ := hlast.exists_before hlt
      exact ⟨y', s', hnext⟩
  exact ⟨y', s', by rw [← walk_succ_of_ok h.walk, hnext.walk], hnext⟩

/-- The second system has the residuals of the first one at the iterates of a run up to the last
one, and its Jacobians at those before. -/
structure Agrees (newton : Newton α) (system system' : System α n) (y₀ : Vector α n) (K : Nat) :
    Prop where
  residual : ∀ k, k ≤ K → system'.residualVector (newton.iterateAfter system y₀ k) =
    system.residualVector (newton.iterateAfter system y₀ k)
  jacobian : ∀ k, k < K → system'.jacobianMatrix (newton.iterateAfter system y₀ k) =
    system.jacobianMatrix (newton.iterateAfter system y₀ k)

/-- A system that agrees with the first one up to the place where the run stops takes the same
steps there. -/
theorem Visits.lockstep_of_agrees (hlast : Visits newton system y₀ K z t)
    (hstop : newton.maxSteps ≤ newton.machine.counted K ∨ (newton.status t).raised = true)
    (hagree : Agrees newton system system' y₀ K) :
    Lockstep newton system y₀ 0 newton system' id id id where
  status _ _ := rfl
  budget _ _ _ := Iff.rfl
  ending _ _ := rfl
  step {k y s} _ h hk hraised := by
    have hlt : k < K := (hlast.lt_iff hstop h).2 ⟨hk, hraised⟩
    obtain ⟨y', s', hstep, hnext⟩ := hlast.exists_step h hlt
    obtain ⟨mask, A, d, f, hm, hA, hd, hy', hf, hs'⟩ := value_step_eq_ok_iff.1 hstep
    have hA' := hagree.jacobian k hlt
    rw [h.iterateAfter, hA] at hA'
    have hf' := hagree.residual (k + 1) hlt
    rw [hnext.iterateAfter, hf] at hf'
    rw [hstep]
    exact value_step_eq_ok_iff.2 ⟨mask, A, d, f, hm, hA', hd, hy', hf', hs'⟩

/-- The run with a system that starts and agrees ends as the first one. -/
theorem Visits.value_run_of_agrees (hlast : Visits newton system y₀ K z t)
    (hstop : newton.maxSteps ≤ newton.machine.counted K ∨ (newton.status t).raised = true)
    (hagree : Agrees newton system system' y₀ K)
    (h₀' : (newton.init system' y₀).value = .ok s₀) :
    (newton.run system' y₀).value = (newton.run system y₀).value := by
  obtain ⟨t₀, h₀⟩ := hlast.exists_init
  have hf := hagree.residual 0 (Nat.zero_le K)
  rw [(Visits.start h₀ hlast.checkTolerances).iterateAfter] at hf
  have hs : s₀ = t₀ := by
    obtain ⟨-, f, hf₀, -, -, rfl⟩ := value_init_eq_ok_iff.1 h₀
    obtain ⟨-, f', hf₀', -, -, rfl⟩ := value_init_eq_ok_iff.1 h₀'
    rw [hf, hf₀] at hf₀'
    rw [Except.ok.inj hf₀']
  have hrun := (hlast.lockstep_of_agrees hstop hagree).value_run h₀ (hs ▸ h₀') rfl
  rw [map_id_eq] at hrun
  exact hrun

/-- A run evaluates the residual and the Jacobian at its iterates in turn, and the residual at the
last one, where the loop evaluates nothing. -/
theorem Visits.evaluations_run_of_last (h : Visits newton system y₀ k y s)
    (hstop : newton.maxSteps ≤ newton.machine.counted k ∨ (newton.status s).raised = true) :
    (newton.run system y₀).evaluations = alternation (newton.iterateAfter system y₀) k := by
  have hend : (newton.run system y₀).value ≠ .error .endless := by
    rw [h.value_run_of_last hstop]
    exact fun h => nomatch h
  rw [← h.steps] at hstop
  rw [h.evaluations_run hend, evaluations_iterate_of_last hstop, List.append_nil]

/-- What a run with a solution evaluates are the residual and the Jacobian at its iterates in turn,
and the residual at the last one. With any other system that starts, and that agrees with the
first one at these points, the solution is the same.

So a run from a start that has converged or is not finite, or without budget, evaluates the
residual at the start only, and its solution is the same for any Jacobian. -/
theorem run_evaluates_in_turn :
    (∀ solution, (newton.run system y₀).value = .ok solution →
      ∃ K, solution.steps = newton.machine.counted K ∧
        (∀ k, k ≤ K → ∃ s, Visits newton system y₀ k (newton.iterateAfter system y₀ k) s) ∧
        newton.iterateAfter system y₀ 0 = y₀ ∧
        newton.iterateAfter system y₀ K = solution.value ∧
        (newton.run system y₀).evaluations = alternation (newton.iterateAfter system y₀) K ∧
        ∀ system' s₀', (newton.init system' y₀).value = .ok s₀' →
          Agrees newton system system' y₀ K → (newton.run system' y₀).value = .ok solution) ∧
    ∀ s₀, (newton.init system y₀).value = .ok s₀ → newton.checkTolerances = .ok () →
      (newton.status s₀).converged = true ∨ (newton.status s₀).nonFinite = true ∨
        newton.maxSteps = 0 →
      ∃ solution, (newton.run system y₀).value = .ok solution ∧ solution.steps = 0 ∧
        (newton.run system y₀).evaluations = [.residual y₀] ∧
        ∀ system' s₀', (newton.init system' y₀).value = .ok s₀' →
          system'.residualVector y₀ = system.residualVector y₀ →
          (newton.run system' y₀).value = .ok solution := by
  refine ⟨fun solution hrun => ?_, fun s₀ h₀ ht hstop => ?_⟩
  · obtain ⟨K, s, hlast, hend, hstop⟩ := exists_visits_of_run hrun
    obtain ⟨s₀, h₀⟩ := hlast.exists_init
    refine ⟨K, hlast.steps_of_ending hend, fun k hk => ?_,
      (Visits.start h₀ hlast.checkTolerances).iterateAfter, hlast.iterateAfter,
      hlast.evaluations_run_of_last hstop, fun system' s₀' h₀' hagree => ?_⟩
    · rcases Nat.eq_or_lt_of_le hk with rfl | hlt
      · exact ⟨s, by rwa [hlast.iterateAfter]⟩
      · obtain ⟨z, t, h, -⟩ := hlast.exists_before hlt
        exact ⟨t, by rwa [h.iterateAfter]⟩
    · rw [hlast.value_run_of_agrees hstop hagree h₀', hrun]
  · have hstart : Visits newton system y₀ 0 y₀ s₀ := .start h₀ ht
    have hlast : newton.maxSteps ≤ newton.machine.counted 0 ∨
        (newton.status s₀).raised = true := by
      unfold Flags.raised
      rcases hstop with hc | hf | hm
      · exact Or.inr (by rw [hc]; rfl)
      · exact Or.inr (by rw [hf, Bool.or_true])
      · exact Or.inl (by rw [Machine.counted_zero, hm]; exact Int.le_refl 0)
    refine ⟨_, hstart.value_run_of_last hlast, steps_of_init h₀, ?_,
      fun system' s₀' h₀' hF => ?_⟩
    · rw [hstart.evaluations_run_of_last hlast, alternation, hstart.iterateAfter]
    · have hagree : Agrees newton system system' y₀ 0 := by
        refine ⟨fun k hk => ?_, fun k hk => absurd hk (Nat.not_lt_zero k)⟩
        rw [Nat.le_zero.1 hk, hstart.iterateAfter, hF]
      rw [hstart.value_run_of_agrees hlast hagree h₀', hstart.value_run_of_last hlast]

end Evaluations

/-- From three, in the default configuration, `y - 1 = 0` takes one step to one. Its residual is
evaluated at both and its Jacobian at three, and the patched system has the same solution; and
from one on neither evaluates a Jacobian. -/
theorem run_unitEquation_evaluates :
    ∃ solution, ((Solver.standard.newton Binary64).run unitEquation #v[⟨3⟩]).value = .ok solution ∧
      ((Solver.standard.newton Binary64).run unitEquation #v[⟨3⟩]).evaluations =
        [.residual #v[⟨3⟩], .jacobian #v[⟨3⟩], .residual #v[1]] ∧
      ((Solver.standard.newton Binary64).run patchedEquation #v[⟨3⟩]).value = .ok solution ∧
      ∃ solution₁,
        ((Solver.standard.newton Binary64).run unitEquation #v[1]).value = .ok solution₁ ∧
        solution₁.steps = 0 ∧
        ((Solver.standard.newton Binary64).run patchedEquation #v[1]).value = .ok solution₁ := by
  have hmask : maskFor (Solver.standard.newton Binary64).machine
      (Solver.standard.newton Binary64).projection 1 = .ok #v[true] := rfl
  have hpatched : ∀ y, ((Solver.standard.newton Binary64).init patchedEquation y).value =
      .ok (.initial (if y[0] = ⟨3⟩ ∨ y[0] = 1 then #v[y[0] - 1] else #v[0])) := fun y =>
    value_init_eq_ok_iff.2 ⟨Nat.one_ne_zero, _, System.residualVector_ofMaps y _ _, rfl,
      ⟨_, hmask⟩, rfl⟩
  have hF : ∀ y : Vector Binary64 1, y[0] = ⟨3⟩ ∨ y[0] = 1 →
      patchedEquation.residualVector y = unitEquation.residualVector y := by
    intro y hy
    rw [patchedEquation, unitEquation, System.residualVector_ofMaps,
      System.residualVector_ofMaps, if_pos hy]
  have hJ : patchedEquation.jacobianMatrix #v[⟨3⟩] = unitEquation.jacobianMatrix #v[⟨3⟩] := by
    rw [patchedEquation, unitEquation, System.jacobianMatrix_ofMaps, System.jacobianMatrix_ofMaps]
    exact congrArg Except.ok (if_pos rfl)
  have heval : ((Solver.standard.newton Binary64).runFor unitEquation 2 #v[⟨3⟩]).map
      (·.toOption.map Solution.steps) = some (some 1) := by decide +kernel
  have hnext : (Solver.standard.newton Binary64).iterateAfter unitEquation #v[⟨3⟩] 1 = #v[1] := by
    decide +kernel
  have hconverged : ((Solver.standard.newton Binary64).status
      (.initial (#v[0] : Vector Binary64 1))).converged = true := by decide +kernel
  obtain ⟨solution, hrun, hsteps⟩ := exists_run_of_runFor heval
  obtain ⟨K, hK, hvisits, h0, -, hevaluations, hsame⟩ := run_evaluates_in_turn.1 solution hrun
  -- the default budget is one that the counter can reach, so the run has taken a single step
  obtain rfl : K = 1 := by
    obtain ⟨s, hvisit⟩ := hvisits K (Nat.le_refl K)
    have hc := Solver.counts_standard.mono (hvisit.le_maxSteps Solver.counts_standard)
    rw [hsteps] at hK
    have hcounted : ((1 : Nat) : Int) = K := hK.trans (Machine.counted_of_counts hc)
    exact (Int.ofNat.inj hcounted).symm
  have hagree : Agrees (Solver.standard.newton Binary64) unitEquation patchedEquation #v[⟨3⟩]
      1 := by
    refine ⟨fun k hk => ?_, fun k hk => ?_⟩
    · rcases Nat.le_one_iff_eq_zero_or_eq_one.1 hk with rfl | rfl
      · rw [h0, hF _ (Or.inl rfl)]
      · rw [hnext, hF _ (Or.inr rfl)]
    · rw [Nat.lt_one_iff.1 hk, h0, hJ]
  have h₁ : ((Solver.standard.newton Binary64).init unitEquation #v[1]).value =
      .ok (.initial #v[0]) := init_unitEquation hmask (by decide +kernel)
  obtain ⟨solution₁, hrun₁, hsteps₁, -, hsame₁⟩ :=
    run_evaluates_in_turn.2 _ h₁ rfl (Or.inl hconverged)
  refine ⟨solution, hrun, ?_, hsame patchedEquation _ (hpatched _) hagree, solution₁, hrun₁,
    hsteps₁, hsame₁ patchedEquation _ (hpatched _) ?_⟩
  · rw [hevaluations, alternation, alternation, h0, hnext]
    rfl
  · exact hF _ (Or.inr rfl)

end Newton

end Stationary
