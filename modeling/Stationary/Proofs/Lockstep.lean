import Stationary.Proofs.LoopHeads

/-!
# Runs in lockstep

What a step finds out depends on the iterate and the stored residual only : the next iterate,
whether the linear step could be used, and the next residual (`Newton.move`). The rest of the
state is bookkeeping (`State.moved`). So nothing else survives from one step to the next.

Two runs are in lockstep (`Newton.Lockstep`) if there is a map of iterates and one of states
under which the second run takes the image of every step of the first one, and reads the same
flags and the same of its counter. This is asked for only at the places that the first run
visits. Then the second run ends at the image of the place where the first one does, or fails
as it does, or goes on for ever as it does (`Newton.Lockstep.value_iterate`), by induction on
the number of heads.
-/

set_option linter.unusedSectionVars false

namespace Stationary

variable {α : Type} {n : Nat}

open Journaled

/-! ## Moves -/

/-- What a step finds out : the next iterate, whether the linear step could be used, and the
residual at the next iterate. -/
structure Move (α : Type) (n : Nat) where
  next : Vector α n
  usable : Bool
  residual : Vector α n

variable [Scalar α]

/-- The state after a move. -/
def State.moved (machine : Machine) (s : State α n) (m : Move α n) : State α n where
  steps := machine.next s.steps
  residual := m.residual
  norm := Vec.norm m.residual
  initialNorm := s.initialNorm
  stepFailed := !m.usable

namespace Newton

variable [Decomposes α] {newton newton' : Newton α} {system system' : System α n}
  {y₀ y : Vector α n} {s₀ s : State α n} {first k : Nat}

/-- The move from the iterate `y` with the residual `r`. -/
def move (newton : Newton α) (system : System α n) (y r : Vector α n) :
    Except Failure (Move α n) :=
  ((maskFor newton.machine newton.projection n).mapError .policy).bind fun mask =>
    (system.jacobianMatrix y).bind fun A =>
      (newton.linearStep A (Vec.neg r)).bind fun d =>
        (system.residualVector (advance mask y d)).map fun f =>
          { next := advance mask y d, usable := d.usable, residual := f }

/-- A step is the move from the stored residual, and bookkeeping. -/
theorem value_step_eq_move : (newton.step system y s).value =
    (newton.move system y s.residual).map fun m => (m.next, s.moved newton.machine m) := by
  rw [value_step]
  unfold move
  simp only [map_bind_eq, map_map_eq]
  rfl

/-- A step is the image of another one if its move is. -/
theorem value_step_of_move (φ : Vector α n → Vector α n) (ψ : State α n → State α n)
    (μ : Move α n → Move α n)
    (hmove : newton'.move system' (φ y) (ψ s).residual = (newton.move system y s.residual).map μ)
    (hnext : ∀ m, (μ m).next = φ m.next)
    (hstate : ∀ m, (ψ s).moved newton'.machine (μ m) = ψ (s.moved newton.machine m)) :
    (newton'.step system' (φ y) (ψ s)).value =
      (newton.step system y s).value.map (Prod.map φ ψ) := by
  rw [value_step_eq_move, value_step_eq_move, hmove]
  cases newton.move system y s.residual with
  | error e => rfl
  | ok m => exact congrArg Except.ok (Prod.ext (hnext m) (hstate m))

/-- If the start and every step of a walk have their images in another one, so has every place. -/
theorem walk_eq_map {φ : Vector α n → Vector α n} {ψ : State α n → State α n}
    (hinit : (newton'.init system' (φ y₀)).value = (newton.init system y₀).value.map ψ)
    (hstep : ∀ y s, (newton'.step system' (φ y) (ψ s)).value =
      (newton.step system y s).value.map (Prod.map φ ψ)) (k : Nat) :
    newton'.walk system' (φ y₀) k = (newton.walk system y₀ k).map (Prod.map φ ψ) := by
  induction k with
  | zero =>
    unfold walk
    rw [hinit]
    cases (newton.init system y₀).value <;> rfl
  | succ k ih =>
    rw [walk, walk, ih]
    cases newton.walk system y₀ k with
    | error e => rfl
    | ok p => exact hstep p.1 p.2

/-! ## Places before the last one -/

/-- Before a place that a run visits there is one that it goes by after any smaller number of
steps. -/
theorem Visits.exists_before {j : Nat} (h : Visits newton system y₀ k y s) (hj : j < k) :
    ∃ z t, Visits newton system y₀ j z t ∧ newton.machine.counted j < newton.maxSteps ∧
      (newton.status t).raised = false := by
  induction h with
  | start _ _ => exact absurd hj (Nat.not_lt_zero j)
  | @step k y y' s s' h hk hraised _ ih =>
    rcases Nat.lt_succ_iff_lt_or_eq.1 hj with hj | rfl
    · exact ih hj
    · exact ⟨y, s, h, hk, hraised⟩

/-- The places before the one where a run stops are those that it goes by. -/
theorem Visits.lt_iff {K : Nat} {z : Vector α n} {t : State α n}
    (hlast : Visits newton system y₀ K z t)
    (hstop : newton.maxSteps ≤ newton.machine.counted K ∨ (newton.status t).raised = true)
    (h : Visits newton system y₀ k y s) :
    k < K ↔ newton.machine.counted k < newton.maxSteps ∧ (newton.status s).raised = false := by
  have hends : ¬(newton.machine.counted K < newton.maxSteps ∧
      (newton.status t).raised = false) := by
    rintro ⟨hk, hraised⟩
    rcases hstop with hK | hup
    · exact absurd hK (Int.not_le.2 hk)
    · rw [hraised] at hup
      cases hup
  constructor
  · intro hk
    obtain ⟨z', t', h', hbefore⟩ := hlast.exists_before hk
    obtain ⟨-, rfl⟩ := h.unique h'
    exact hbefore
  · intro hby
    by_contra hle
    rcases Nat.eq_or_lt_of_le (Nat.le_of_not_lt hle) with rfl | hlt
    · obtain ⟨-, rfl⟩ := h.unique hlast
      exact hends hby
    · obtain ⟨z', t', h', hbefore⟩ := h.exists_before hlt
      obtain ⟨-, rfl⟩ := hlast.unique h'
      exact hends hbefore

/-! ## Lockstep -/

/-- From place `first` on, the second run takes the images of the steps of the first one, reads the
same flags, and without a flag has budget left where the first one has; and it would report of
every place the image of what the first one would. -/
structure Lockstep (newton : Newton α) (system : System α n) (y₀ : Vector α n) (first : Nat)
    (newton' : Newton α) (system' : System α n) (φ : Vector α n → Vector α n)
    (ψ : State α n → State α n) (report : Solution α n → Solution α n) : Prop where
  status : ∀ {k y s}, first ≤ k → Visits newton system y₀ k y s →
    newton'.status (ψ s) = newton.status s
  budget : ∀ {k y s}, first ≤ k → Visits newton system y₀ k y s →
    (newton.status s).raised = false →
    (newton'.maxSteps ≤ (ψ s).steps ↔ newton.maxSteps ≤ s.steps)
  ending : ∀ {k y s}, first ≤ k → Visits newton system y₀ k y s →
    newton'.ending (φ y) (ψ s) = report (newton.ending y s)
  step : ∀ {k y s}, first ≤ k → Visits newton system y₀ k y s →
    newton.machine.counted k < newton.maxSteps → (newton.status s).raised = false →
    (newton'.step system' (φ y) (ψ s)).value =
      (newton.step system y s).value.map (Prod.map φ ψ)

namespace Lockstep

variable {φ : Vector α n → Vector α n} {ψ : State α n → State α n}
  {report : Solution α n → Solution α n}

/-- From the image of a place that the first run visits, the second loop comes to the image of its
end after as many heads. -/
theorem iterateFor_eq (h : Lockstep newton system y₀ first newton' system' φ ψ report)
    (hk : first ≤ k) (hvisit : Visits newton system y₀ k y s) (fuel : Nat) :
    newton'.iterateFor system' fuel (φ y) (ψ s) =
      (newton.iterateFor system fuel y s).map (·.map report) := by
  induction fuel generalizing k y s with
  | zero => rfl
  | succ fuel ih =>
    have hstatus := h.status hk hvisit
    have hend := h.ending hk hvisit
    cases hraised : (newton.status s).raised with
    | true =>
      rw [iterateFor_of_last (Or.inr hraised), iterateFor_of_last (Or.inr (hstatus ▸ hraised)),
        hend]
      rfl
    | false =>
      have hraised' : (newton'.status (ψ s)).raised = false := hstatus ▸ hraised
      have hbudget := h.budget hk hvisit hraised
      by_cases hsteps : newton.maxSteps ≤ s.steps
      · rw [iterateFor_of_last (Or.inl hsteps), iterateFor_of_last (Or.inl (hbudget.2 hsteps)),
          hend]
        rfl
      · have hsteps' : ¬newton'.maxSteps ≤ (ψ s).steps := fun hle => hsteps (hbudget.1 hle)
        have hlt := Int.lt_of_not_ge hsteps
        rw [iterateFor_of_step hraised hlt,
          iterateFor_of_step hraised' (Int.lt_of_not_ge hsteps')]
        rw [hvisit.steps] at hlt
        rw [h.step hk hvisit hlt hraised]
        cases hstep : (newton.step system y s).value with
        | error e => rfl
        | ok p => exact ih (by omega) (.step hvisit hlt hraised hstep)

/-- From the image of a place that the first run visits, the second loop ends at the image of its
end, or fails as it does. -/
theorem value_iterate (h : Lockstep newton system y₀ first newton' system' φ ψ report)
    (hk : first ≤ k) (hvisit : Visits newton system y₀ k y s) :
    (newton'.iterate system' (φ y) (ψ s)).value =
      (newton.iterate system y s).value.map report :=
  value_iterate_map (h.iterateFor_eq hk hvisit)

/-- Two runs from their starts in lockstep. -/
theorem value_run (h : Lockstep newton system y₀ 0 newton' system' φ ψ report)
    (h₀ : (newton.init system y₀).value = .ok s₀)
    (h₀' : (newton'.init system' (φ y₀)).value = .ok (ψ s₀))
    (ht : newton'.checkTolerances = newton.checkTolerances) :
    (newton'.run system' (φ y₀)).value = (newton.run system y₀).value.map report := by
  rw [Newton.value_run h₀, Newton.value_run h₀', ht]
  cases hfit : newton.checkTolerances with
  | error e => rfl
  | ok u => exact h.value_iterate (Nat.zero_le 0) (.start h₀ hfit)

end Lockstep

end Newton

end Stationary
