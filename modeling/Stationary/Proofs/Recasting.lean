import Mathlib
import Stationary.Proofs.Lockstep
import Stationary.Proofs.Masks
import Stationary.Proofs.ProjectedSteps
import Stationary.Proofs.Regularity

/-!
# Systems recast

A system can be written in other unknowns and with other equations. A `Recasting` says how the
unknowns, the residual and the Jacobian change, and carries what a linear step needs : sums
of unknowns change as their parts do, regular Jacobians stay regular, and solutions of the
linear equations change as the unknowns do.

In exact arithmetic, by elimination and with the threshold zero, a linear step depends on nothing
else (`LinearStep.lu_image`). So a step of the recast system is the step of the old one in the
new unknowns (`Newton.value_step_recast`), if the masks correspond too. This needs no norms and
holds along the whole walk (`Newton.walk_recast`). If the norm of the residual stays the same,
the flags do, and the runs are in lockstep (`Newton.value_run_recast`).
-/

set_option linter.unusedSectionVars false

namespace Stationary

open Journaled

/-- A change of unknowns and equations under which linear steps correspond. -/
structure Recasting (𝕜 : Type) [ExactArithmetic 𝕜] (n : Nat) where
  /-- The new unknowns. -/
  unknowns : Vector 𝕜 n ≃ Vector 𝕜 n
  /-- The new residual. -/
  residual : Vector 𝕜 n → Vector 𝕜 n
  /-- The new Jacobian. -/
  jacobian : SquareMatrix 𝕜 n → SquareMatrix 𝕜 n
  unknowns_add : ∀ u v, unknowns (Vec.add u v) = Vec.add (unknowns u) (unknowns v)
  regular_iff : ∀ A, (jacobian A).toMatrix.det ≠ 0 ↔ A.toMatrix.det ≠ 0
  isSolution : ∀ A r x, IsSolution A (Vec.neg r) x →
    IsSolution (jacobian A) (Vec.neg (residual r)) (unknowns x)

variable {𝕜 : Type} {n : Nat} [ExactArithmetic 𝕜]

/-! ## Systems -/

namespace System

/-- The system in new unknowns and with new equations. Values that have not the right shape
stay. -/
def recast (c : Recasting 𝕜 n) (system : System 𝕜 n) : System 𝕜 n where
  residual y := (system.residual (c.unknowns.symm y)).map fun t =>
    match t.toVector? n with
    | some f => .ofVector (c.residual f)
    | none => t
  jacobian y := (system.jacobian (c.unknowns.symm y)).map fun t =>
    match t.toMatrix? n with
    | some A => .ofMatrix (c.jacobian A)
    | none => t
  residualShape := system.residualShape
  jacobianShape := system.jacobianShape

variable (c : Recasting 𝕜 n) (system : System 𝕜 n) (y : Vector 𝕜 n)

theorem residualVector_recast : (system.recast c).residualVector (c.unknowns y) =
    (system.residualVector y).map c.residual := by
  unfold residualVector recast
  simp only [Equiv.symm_apply_apply]
  cases system.residual y with
  | error e => rfl
  | ok t =>
    simp only [Except.map]
    cases ht : t.toVector? n with
    | none => simp only [ht]
    | some f => simp only [Tensor.toVector?_ofVector]

theorem jacobianMatrix_recast : (system.recast c).jacobianMatrix (c.unknowns y) =
    (system.jacobianMatrix y).map c.jacobian := by
  unfold jacobianMatrix recast
  simp only [Equiv.symm_apply_apply]
  cases system.jacobian y with
  | error e => rfl
  | ok t =>
    simp only [Except.map]
    cases ht : t.toMatrix? n with
    | none => simp only [ht]
    | some A => simp only [Tensor.toMatrix?_ofMatrix]

end System

/-! ## Steps -/

/-- A move of the recast system. -/
def Move.recast (c : Recasting 𝕜 n) (m : Move 𝕜 n) : Move 𝕜 n where
  next := c.unknowns m.next
  usable := m.usable
  residual := c.residual m.residual

/-- A state of the recast system, whose residual at the start has norm `m`. -/
def State.recast (c : Recasting 𝕜 n) (m : 𝕜) (s : State 𝕜 n) : State 𝕜 n where
  steps := s.steps
  residual := c.residual s.residual
  norm := Vec.norm (c.residual s.residual)
  initialNorm := m
  stepFailed := s.stepFailed

/-- The solution in the new unknowns. -/
def Solution.recast (c : Recasting 𝕜 n) (s : Solution 𝕜 n) : Solution 𝕜 n :=
  { s with value := c.unknowns s.value }

namespace Newton

variable [Decomposes 𝕜] {newton : Newton 𝕜} {policy : Setting} {system : System 𝕜 n}
  {c : Recasting 𝕜 n} {y₀ y : Vector 𝕜 n} {s₀ s : State 𝕜 n} {m : 𝕜} {mask mask' : Vector Bool n}
  {k : Nat}

/-- Linear steps are by elimination, with the threshold zero. -/
def EliminatesExactly (newton : Newton 𝕜) : Prop :=
  newton.linearMethod = .lu ∧ newton.pivotRtol = .relative 0

theorem EliminatesExactly.linearStep (h : newton.EliminatesExactly) (A : SquareMatrix 𝕜 n)
    (b : Vector 𝕜 n) : newton.linearStep A b = .ok (.lu A b 0) := by
  unfold Newton.linearStep
  rw [h.1, h.2]

theorem EliminatesExactly.checkPivots (h : newton.EliminatesExactly) :
    newton.checkPivots = .ok () := by
  unfold Newton.checkPivots
  rw [h.1, h.2]

/-- One mask clamps in the new unknowns what the other one clamps in the old ones. -/
def MasksCorrespond (c : Recasting 𝕜 n) (mask mask' : Vector Bool n) : Prop :=
  ∀ v, clamp mask' (c.unknowns v) = c.unknowns (clamp mask v)

theorem MasksCorrespond.advance (h : MasksCorrespond c mask mask') (A : SquareMatrix 𝕜 n)
    (y r : Vector 𝕜 n) :
    advance mask' (c.unknowns y) (.lu (c.jacobian A) (Vec.neg (c.residual r)) 0) =
      c.unknowns (advance mask y (.lu A (Vec.neg r) 0)) := by
  obtain ⟨hflag, hdelta⟩ := LinearStep.lu_image (c.regular_iff A) (c.isSolution A r)
  cases hu : (LinearStep.lu A (Vec.neg r) 0).usable with
  | true =>
    unfold Newton.advance
    rw [if_pos (hflag.trans hu), if_pos hu, hdelta hu, ← c.unknowns_add, h]
  | false =>
    rw [advance_of_unusable mask' _ (hflag.trans hu), advance_of_unusable mask _ hu]

/-- A move of the recast system is the old one in the new unknowns. -/
theorem move_recast (h : newton.EliminatesExactly)
    (hm : maskFor newton.machine newton.projection n = .ok mask)
    (hm' : maskFor newton.machine policy n = .ok mask') (hmasks : MasksCorrespond c mask mask')
    (y r : Vector 𝕜 n) :
    (newton.withPolicy policy).move (system.recast c) (c.unknowns y) (c.residual r) =
      (newton.move system y r).map (Move.recast c) := by
  have h' : (newton.withPolicy policy).EliminatesExactly := h
  have hpolicy : maskFor (newton.withPolicy policy).machine
      (newton.withPolicy policy).projection n = .ok mask' := hm'
  unfold move
  rw [hm, hpolicy, System.jacobianMatrix_recast]
  cases system.jacobianMatrix y with
  | error e => rfl
  | ok A =>
    simp only [Except.mapError, Except.map, Except.bind, h.linearStep, h'.linearStep,
      hmasks.advance, System.residualVector_recast]
    cases system.residualVector (advance mask y (.lu A (Vec.neg r) 0)) with
    | error e => rfl
    | ok f =>
      have hflag := (LinearStep.lu_image (c.regular_iff A) (c.isSolution A r)).1
      simp only [Move.recast, hflag]

theorem value_step_recast (h : newton.EliminatesExactly)
    (hm : maskFor newton.machine newton.projection n = .ok mask)
    (hm' : maskFor newton.machine policy n = .ok mask')
    (hmasks : MasksCorrespond c mask mask') (m : 𝕜) (y : Vector 𝕜 n) (s : State 𝕜 n) :
    ((newton.withPolicy policy).step (system.recast c) (c.unknowns y) (s.recast c m)).value =
      (newton.step system y s).value.map (Prod.map c.unknowns (State.recast c m)) :=
  value_step_of_move c.unknowns (State.recast c m) (Move.recast c)
    (move_recast h hm hm' hmasks y s.residual) (fun _ => rfl) fun _ => rfl

/-! ## Walks and runs -/

theorem value_init_recast (h₀ : (newton.init system y₀).value = .ok s₀)
    (hm' : maskFor newton.machine policy n = .ok mask') :
    ((newton.withPolicy policy).init (system.recast c) (c.unknowns y₀)).value =
      .ok (s₀.recast c (Vec.norm (c.residual s₀.residual))) := by
  obtain ⟨hn, f, hf, hshape, -, rfl⟩ := value_init_eq_ok_iff.1 h₀
  refine value_init_eq_ok_iff.2 ⟨hn, c.residual f, ?_, hshape, ⟨mask', hm'⟩, rfl⟩
  rw [System.residualVector_recast, hf]
  rfl

/-- With the same policy the recast system fails at its start as the old one does. -/
theorem value_init_recast_of_error (c : Recasting 𝕜 n) {e : Failure}
    (h₀ : (newton.init system y₀).value = .error e) :
    (newton.init (system.recast c) (c.unknowns y₀)).value = .error e := by
  by_cases hn : n = 0
  · rw [init_eq_throw newton _ _ hn] at h₀ ⊢
    exact h₀
  · rw [value_init_eq_error_iff hn] at h₀ ⊢
    rw [System.residualVector_recast]
    rcases h₀ with hf | ⟨f, hf, hrest⟩
    · exact Or.inl (by rw [hf]; rfl)
    · exact Or.inr ⟨c.residual f, by rw [hf]; rfl, hrest⟩

/-- The recast system starts if the old one does and there is a mask. -/
theorem exists_init_of_recast
    (h₀ : ((newton.withPolicy policy).init (system.recast c) (c.unknowns y₀)).value = .ok s₀)
    (hm : maskFor newton.machine newton.projection n = .ok mask) :
    ∃ s, (newton.init system y₀).value = .ok s := by
  obtain ⟨hn, f', hf', hshape, -, -⟩ := value_init_eq_ok_iff.1 h₀
  rw [System.residualVector_recast] at hf'
  obtain ⟨f, hf, -⟩ := map_eq_ok_iff.1 hf'
  exact ⟨_, value_init_eq_ok_iff.2 ⟨hn, f, hf, hshape, ⟨mask, hm⟩, rfl⟩⟩

/-- A walk of the recast system is the old one in the new unknowns. -/
theorem walk_recast (h : newton.EliminatesExactly) (h₀ : (newton.init system y₀).value = .ok s₀)
    (hm : maskFor newton.machine newton.projection n = .ok mask)
    (hm' : maskFor newton.machine policy n = .ok mask')
    (hmasks : MasksCorrespond c mask mask') (k : Nat) :
    (newton.withPolicy policy).walk (system.recast c) (c.unknowns y₀) k =
      (newton.walk system y₀ k).map
        (Prod.map c.unknowns (State.recast c (Vec.norm (c.residual s₀.residual)))) := by
  refine walk_eq_map ?_ (value_step_recast h hm hm' hmasks _) k
  rw [value_init_recast h₀ hm', h₀]
  rfl

/-- If norms stay the same, the states of the recast system have the flags of the old ones. -/
theorem Visits.status_recast (h : Visits newton system y₀ k y s)
    (h₀ : (newton.init system y₀).value = .ok s₀)
    (hnorm : ∀ r, Vec.norm (c.residual r) = Vec.norm r) :
    (newton.withPolicy policy).status (s.recast c (Vec.norm (c.residual s₀.residual))) =
      newton.status s := by
  have ht := tracks_walk h.walk
  obtain ⟨f₀, hf₀, hinit⟩ := ht.initialNorm
  have hf₀' := (Tracks.start h₀).residual
  obtain rfl := Except.ok.inj (hf₀.symm.trans hf₀')
  unfold status State.flags State.recast
  rw [hnorm, hnorm, ← ht.norm, ← hinit, Vec.allFinite_exact, Vec.allFinite_exact]
  rfl

/-- If norms stay the same, a run of the recast system is the old one in the new unknowns. -/
theorem value_run_recast (h : newton.EliminatesExactly)
    (h₀ : (newton.init system y₀).value = .ok s₀)
    (hm : maskFor newton.machine newton.projection n = .ok mask)
    (hm' : maskFor newton.machine policy n = .ok mask') (hmasks : MasksCorrespond c mask mask')
    (hnorm : ∀ r, Vec.norm (c.residual r) = Vec.norm r) :
    ((newton.withPolicy policy).run (system.recast c) (c.unknowns y₀)).value =
      (newton.run system y₀).value.map (Solution.recast c) := by
  have hlock : Lockstep newton system y₀ 0 (newton.withPolicy policy) (system.recast c) c.unknowns
      (State.recast c (Vec.norm (c.residual s₀.residual))) (Solution.recast c) := by
    refine ⟨fun _ hvisit => hvisit.status_recast h₀ hnorm, fun _ _ _ => Iff.rfl,
      fun {k y s} _ hvisit => ?_,
      fun _ _ _ _ => value_step_recast h hm hm' hmasks _ _ _⟩
    have hs : Vec.norm (c.residual s.residual) = s.norm := by
      rw [hnorm, (tracks_walk hvisit.walk).norm]
    unfold ending
    rw [hvisit.status_recast h₀ hnorm]
    unfold State.recast Solution.recast
    simp only [hs]
  exact hlock.value_run h₀ (value_init_recast h₀ hm') rfl

/-- The iteration over the rational numbers with the threshold zero, which clamps nothing. -/
def exactRational : Newton ℚ :=
  { rational with projection := .text unclamped, pivotRtol := .relative 0 }

theorem eliminatesExactly_exactRational : exactRational.EliminatesExactly :=
  ⟨rfl, rfl⟩

end Newton

end Stationary
