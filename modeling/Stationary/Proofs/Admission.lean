import Stationary.Launch
import Stationary.Proofs.LoopHeads
import Stationary.Proofs.Misfits

/-!
# Admission

A caller starts a run from a tensor, with systems whose values are tensors everywhere but promise
no shapes. What can go wrong goes wrong in a fixed order. The run is refused at its start
(`Newton.RefusedFrom`) : the tensor is no vector or has no entries, the residual there has
another shape, the Jacobian is known to have another shape, or the policy has no mask. It is
interrupted (`Newton.InterruptedFrom`) : at a place that it visits and has to leave the
Jacobian has another shape, or the residual at the next iterate. Between the two, at the first
look at the flags, stand tolerances that cannot be computed with.

These are all the ways in which a run fails, unless it goes on for ever
(`Newton.result_runFrom_eq_error_iff`), and what is refused has not evaluated the Jacobian, nor
the residual more than once (`Newton.counts_of_refusedFrom`). For accepted configurations,
`Newton.run_fails_in_order` puts the two together. It supposes that a Jacobian whose shape is
not known in advance is one that needs numbers; any other reason is raised as it is
(`Newton.value_init_of_unforeseen`).
-/

set_option linter.unusedSectionVars false

namespace Stationary

open Journaled

variable {α : Type} {n : Nat}

/-! ## Starts -/

namespace Newton

section Conditions

variable [Scalar α]

/-- Why a run is refused at a start with unknowns, in order : the residual at the start has
another shape; the shape of the Jacobian is known and is another one; the policy has no mask. -/
inductive RefusedAt (newton : Newton α) (system : System α n) (y₀ : Vector α n) : Failure → Prop
  | residual {t : Tensor α} : system.residual y₀ = .ok t → t.shape ≠ [n] →
      RefusedAt newton system y₀ (.residualShape t.shape n)
  | jacobian {t : Tensor α} {s : Shape} : system.residual y₀ = .ok t → t.shape = [n] →
      system.jacobianShape = .ok s → s ≠ [n, n] →
      RefusedAt newton system y₀ (.jacobianShape s n)
  | policy {t : Tensor α} {e : PolicyError} : system.residual y₀ = .ok t → t.shape = [n] →
      (∀ s, system.jacobianShape = .ok s → s = [n, n]) →
      maskFor newton.machine newton.projection n = .error e →
      RefusedAt newton system y₀ (.policy e)

variable {newton : Newton α} {system : System α n} {y₀ : Vector α n} {e : Failure}

theorem value_init_eq_error_iff_refusedAt (hdef : system.NeverFaults)
    (hknown : system.NeedsOnlyValues) (hn : n ≠ 0) :
    (newton.init system y₀).value = .error e ↔ RefusedAt newton system y₀ e := by
  obtain ⟨t, ht⟩ := hdef.residual y₀
  rw [value_init_eq_error_iff hn, System.residualVector_eq_error_iff ht,
    System.value_checkJacobianShape_eq_error_iff hknown,
    System.value_checkJacobianShape_eq_ok_iff hknown]
  constructor
  · rintro (⟨hshape, rfl⟩ | ⟨f, hf, ⟨s, hs, hne, rfl⟩ | ⟨hs, cause, hm, rfl⟩⟩)
    · exact .residual ht hshape
    · exact .jacobian ht ((System.exists_residualVector_iff ht).1 ⟨f, hf⟩) hs hne
    · exact .policy ht ((System.exists_residualVector_iff ht).1 ⟨f, hf⟩) hs hm
  · rintro (⟨ht', hshape⟩ | ⟨ht', hshape, hs, hne⟩ | ⟨ht', hshape, hs, hm⟩)
    · obtain rfl := Except.ok.inj (ht.symm.trans ht')
      exact Or.inl ⟨hshape, rfl⟩
    · obtain rfl := Except.ok.inj (ht.symm.trans ht')
      obtain ⟨f, hf⟩ := (System.exists_residualVector_iff ht).2 hshape
      exact Or.inr ⟨f, hf, Or.inl ⟨_, hs, hne, rfl⟩⟩
    · obtain rfl := Except.ok.inj (ht.symm.trans ht')
      obtain ⟨f, hf⟩ := (System.exists_residualVector_iff ht).2 hshape
      exact Or.inr ⟨f, hf, Or.inr ⟨hs, _, hm, rfl⟩⟩

/-- A Jacobian whose shape is not known in advance for another reason than want of numbers, such
as a selection of entries by a condition, is refused at every start with a residual, though
it may have values of the right shape everywhere. -/
theorem value_init_of_unforeseen {f : Fault} {r : Vector α n} (hn : n ≠ 0)
    (hr : system.residualVector y₀ = .ok r) (hs : system.jacobianShape = .error f)
    (hf : f.needsValues = false) : (newton.init system y₀).value = .error (.fault f) := by
  refine (value_init_eq_error_iff hn).2 (Or.inr ⟨r, hr, Or.inl ?_⟩)
  unfold System.checkJacobianShape
  rw [hs]
  dsimp only
  rw [hf]
  rfl

end Conditions

/-! ## Places on the way -/

variable [Scalar α] [Decomposes α]

/-- Why a run is interrupted : from a place that it visits and has to leave, the Jacobian has
another shape, or the residual at the next iterate. -/
inductive InterruptedAt (newton : Newton α) (system : System α n) (y₀ : Vector α n) :
    Failure → Prop
  | jacobian {k : Nat} {y : Vector α n} {s : State α n} {t : Tensor α} :
      Visits newton system y₀ k y s → newton.machine.counted k < newton.maxSteps →
      (newton.status s).raised = false →
      system.jacobian y = .ok t → t.shape ≠ [n, n] →
      InterruptedAt newton system y₀ (.jacobianShape t.shape n)
  | residual {k : Nat} {y : Vector α n} {s : State α n} {mask : Vector Bool n}
      {d : LinearStep α n} {t : Tensor α} :
      Visits newton system y₀ k y s → newton.machine.counted k < newton.maxSteps →
      (newton.status s).raised = false →
      maskFor newton.machine newton.projection n = .ok mask → newton.Solves system y s d →
      system.residual (advance mask y d) = .ok t → t.shape ≠ [n] →
      InterruptedAt newton system y₀ (.residualShape t.shape n)

variable {newton : Newton α} {system : System α n} {y₀ : Vector α n} {e : Failure}

/-- Where there are a mask and a usable pivot threshold, a step fails for one of two shapes. -/
theorem value_step_eq_error_iff_shape {y : Vector α n} {s : State α n} {mask : Vector Bool n}
    (hdef : system.NeverFaults) (hp : newton.checkPivots = .ok ())
    (hm : maskFor newton.machine newton.projection n = .ok mask) :
    (newton.step system y s).value = .error e ↔
      (∃ t, system.jacobian y = .ok t ∧ t.shape ≠ [n, n] ∧ .jacobianShape t.shape n = e) ∨
      ∃ d t, newton.Solves system y s d ∧ system.residual (advance mask y d) = .ok t ∧
        t.shape ≠ [n] ∧ .residualShape t.shape n = e := by
  rw [value_step_eq_error_iff]
  constructor
  · rintro (⟨cause, hm', -⟩ | ⟨mask', hm', hA | ⟨A, hA, hd | ⟨d, hd, hf⟩⟩⟩)
    · rw [hm] at hm'
      cases hm'
    · obtain ⟨t, ht⟩ := hdef.jacobian y
      exact Or.inl ⟨t, ht, (System.jacobianMatrix_eq_error_iff ht).1 hA⟩
    · obtain ⟨d, hd'⟩ := newton.linearStep_eq A (Vec.neg s.residual)
      rw [hd, hp] at hd'
      cases hd'
    · obtain rfl : mask = mask' := Except.ok.inj (hm.symm.trans hm')
      obtain ⟨t, ht⟩ := hdef.residual (advance mask y d)
      exact Or.inr ⟨d, t, ⟨A, hA, hd⟩, ht, (System.residualVector_eq_error_iff ht).1 hf⟩
  · rintro (⟨t, ht, hshape⟩ | ⟨d, t, ⟨A, hA, hd⟩, ht, hshape⟩)
    · exact Or.inr ⟨mask, hm, Or.inl ((System.jacobianMatrix_eq_error_iff ht).2 hshape)⟩
    · exact Or.inr ⟨mask, hm, Or.inr ⟨A, hA, Or.inr
        ⟨d, hd, (System.residualVector_eq_error_iff ht).2 hshape⟩⟩⟩

theorem interruptedAt_iff (hdef : system.NeverFaults) (hp : newton.checkPivots = .ok ()) :
    InterruptedAt newton system y₀ e ↔ ∃ k y s, Visits newton system y₀ k y s ∧
      newton.machine.counted k < newton.maxSteps ∧ (newton.status s).raised = false ∧
      (newton.step system y s).value = .error e := by
  constructor
  · rintro (⟨hvisit, hk, hraised, ht, hshape⟩ | ⟨hvisit, hk, hraised, hm, hd, ht, hshape⟩)
    · obtain ⟨mask, hm⟩ := hvisit.exists_mask
      exact ⟨_, _, _, hvisit, hk, hraised,
        (value_step_eq_error_iff_shape hdef hp hm).2 (Or.inl ⟨_, ht, hshape, rfl⟩)⟩
    · exact ⟨_, _, _, hvisit, hk, hraised,
        (value_step_eq_error_iff_shape hdef hp hm).2 (Or.inr ⟨_, _, hd, ht, hshape, rfl⟩)⟩
  · rintro ⟨k, y, s, hvisit, hk, hraised, hstep⟩
    obtain ⟨mask, hm⟩ := hvisit.exists_mask
    obtain ⟨t, ht, hshape, rfl⟩ | ⟨d, t, hd, ht, hshape, rfl⟩ :=
      (value_step_eq_error_iff_shape hdef hp hm).1 hstep
    · exact .jacobian hvisit hk hraised ht hshape
    · exact .residual hvisit hk hraised hm hd ht hshape

/-- A run with unknowns fails if it is refused at its start, if it is not and the tolerances cannot
be compared with, if it is interrupted, or if it goes on for ever, and in no other way. -/
theorem value_run_eq_error_iff_cases (hdef : system.NeverFaults)
    (hknown : system.NeedsOnlyValues) (hp : newton.checkPivots = .ok ()) (hn : n ≠ 0) :
    (newton.run system y₀).value = .error e ↔ RefusedAt newton system y₀ e ∨
      ((∀ e', ¬RefusedAt newton system y₀ e') ∧ newton.checkTolerances = .error e) ∨
      InterruptedAt newton system y₀ e ∨ newton.GoesOn system y₀ ∧ e = .endless := by
  have hstart : (∃ s₀, (newton.init system y₀).value = .ok s₀) ↔
      ∀ e', ¬RefusedAt newton system y₀ e' := by
    simp only [← value_init_eq_error_iff_refusedAt hdef hknown hn]
    cases (newton.init system y₀).value <;> simp
  rw [value_run_eq_error_iff, value_init_eq_error_iff_refusedAt hdef hknown hn, hstart,
    interruptedAt_iff hdef hp]

/-! ## Journals -/

/-- A start evaluates the residual once, if at all, and the Jacobian never. -/
theorem counts_init : (newton.init system y₀).written.jacobianCount = 0 ∧
    (newton.init system y₀).written.residualCount ≤ 1 := by
  have hresidual : (system.residualAt y₀).written = #[.residual y₀] := by
    rw [System.residualAt_eq, written_bind]
    simp
  have hshape : system.checkJacobianShape.written.jacobianCount = 0 ∧
      system.checkJacobianShape.written.residualCount = 0 := by
    unfold System.checkJacobianShape
    split
    · split <;> exact ⟨rfl, rfl⟩
    · split <;> exact ⟨rfl, rfl⟩
  have hpolicy : ∀ f, (Journaled.ofExcept Failure.policy
      (maskFor newton.machine newton.projection n) >>=
        fun _ => (pure (State.initial f) : Journaled α n (State α n))).written = #[] := by
    intro f
    rw [written_bind, written_ofExcept]
    split <;> rfl
  by_cases hn : n = 0
  · rw [init_eq_throw newton system y₀ hn]
    exact ⟨rfl, Nat.zero_le 1⟩
  · have hevent : Journal.jacobianCount #[Event.residual y₀] = 0 ∧
        Journal.residualCount #[Event.residual y₀] = 1 := ⟨rfl, rfl⟩
    rw [init_eq newton system y₀ hn, written_bind, hresidual]
    cases (system.residualAt y₀).value with
    | error e => simp [hevent]
    | ok f =>
      simp only [written_bind (m := system.checkJacobianShape), hpolicy]
      cases system.checkJacobianShape.value <;> simp [hevent, hshape]

/-- So does a run that is refused at its start. -/
theorem counts_run_of_init_eq_error (h : (newton.init system y₀).value = .error e) :
    (newton.run system y₀).written.jacobianCount = 0 ∧
      (newton.run system y₀).written.residualCount ≤ 1 := by
  have hwritten : (newton.run system y₀).written = (newton.init system y₀).written := by
    unfold run
    rw [written_bind, h]
    simp
  rw [hwritten]
  exact counts_init

end Newton

/-! ## Tensors -/

theorem Tensor.exists_eq_ofVector {t : Tensor α} (h : t.shape = [n]) :
    ∃ v : Vector α n, t = .ofVector v := by
  obtain ⟨shape, entries, hsize⟩ := t
  obtain rfl : shape = [n] := h
  exact ⟨⟨entries, by simpa [Shape.size] using hsize⟩, rfl⟩

theorem Tensor.ofVector_inj {m : Nat} {v : Vector α m} {w : Vector α n}
    (h : Tensor.ofVector v = Tensor.ofVector w) : m = n ∧ HEq v w := by
  have hshape : [m] = [n] := congrArg Tensor.shape h
  obtain rfl : m = n := List.singleton_inj.1 hshape
  have hentries : v.toArray = w.toArray := congrArg Tensor.entries h
  exact ⟨rfl, heq_of_eq (Vector.toArray_inj.1 hentries)⟩

namespace Newton

variable [Scalar α] [Decomposes α] {newton : Newton α} {systems : (n : Nat) → System α n}
  {y : Tensor α} {e : Failure}

/-- The run from a tensor, with a system for each number of unknowns. -/
def runFrom (newton : Newton α) (systems : (n : Nat) → System α n) (y : Tensor α) :
    Ending α (Solution α) :=
  launch (fun n v => newton.run (systems n) v) y

/-- The run of a problem is one of these. -/
theorem run_problem_eq_runFrom {α : Type} [Elementary α] [Decomposes α] [Inhabited α] [OfKind α]
    (p : Problem) (newton : Newton α) (y : Tensor α) :
    p.run newton y = newton.runFrom (p.system (OfKind.kind α)) y :=
  rfl

theorem runFrom_ofVector (v : Vector α n) : newton.runFrom systems (.ofVector v) =
    { size := n
      result := (newton.run (systems n) v).value
      journal := (newton.run (systems n) v).written } :=
  launch_ofVector _ v

/-- A tensor that is no vector, or has no entries, is refused before anything is evaluated. -/
theorem runFrom_of_shape (h : ∀ n, n ≠ 0 → y.shape ≠ [n]) :
    (newton.runFrom systems y).result = .error (.stateShape y.shape) ∧
      (newton.runFrom systems y).journal.jacobianCount = 0 ∧
      (newton.runFrom systems y).journal.residualCount = 0 := by
  by_cases hempty : y.shape = [0]
  · obtain ⟨v, rfl⟩ := Tensor.exists_eq_ofVector hempty
    have hrun : newton.run (systems 0) v = throw (.stateShape [0]) >>= fun s =>
        ofExcept id newton.checkTolerances >>= fun _ =>
          newton.iterate (systems 0) v s := by
      unfold run
      rw [init_eq_throw newton (systems 0) v rfl]
    rw [runFrom_ofVector, hrun]
    exact ⟨rfl, rfl, rfl⟩
  · have hno : ∀ n, y.shape ≠ [n] := by
      intro n
      by_cases hn : n = 0
      · rwa [hn]
      · exact h n hn
    have hlaunch : newton.runFrom systems y = .refused (.stateShape y.shape) := by
      unfold runFrom launch
      split
      · rename_i n hshape
        exact absurd hshape (hno n)
      · rfl
    rw [hlaunch]
    exact ⟨rfl, rfl, rfl⟩

/-- Why a run from a tensor is refused at its start : the tensor is no vector or has no entries, or
the start is refused. -/
def RefusedFrom (newton : Newton α) (systems : (n : Nat) → System α n) (y : Tensor α)
    (e : Failure) : Prop :=
  ((∀ n, n ≠ 0 → y.shape ≠ [n]) ∧ e = .stateShape y.shape) ∨
    ∃ n, ∃ v : Vector α n, n ≠ 0 ∧ y = .ofVector v ∧ RefusedAt newton (systems n) v e

/-- Why a run from a tensor is interrupted. -/
def InterruptedFrom (newton : Newton α) (systems : (n : Nat) → System α n) (y : Tensor α)
    (e : Failure) : Prop :=
  ∃ n, ∃ v : Vector α n, n ≠ 0 ∧ y = .ofVector v ∧ InterruptedAt newton (systems n) v e

/-- A run from a tensor goes on for ever. -/
def GoesOnFrom (newton : Newton α) (systems : (n : Nat) → System α n) (y : Tensor α) : Prop :=
  ∃ n, ∃ v : Vector α n, n ≠ 0 ∧ y = .ofVector v ∧ newton.GoesOn (systems n) v

theorem refusedFrom_ofVector_iff (hn : n ≠ 0) (v : Vector α n) :
    RefusedFrom newton systems (.ofVector v) e ↔ RefusedAt newton (systems n) v e := by
  constructor
  · rintro (⟨hshape, -⟩ | ⟨m, w, -, hv, hrefused⟩)
    · exact absurd rfl (hshape n hn)
    · obtain ⟨rfl, hvw⟩ := Tensor.ofVector_inj hv
      rwa [eq_of_heq hvw]
  · intro hrefused
    exact Or.inr ⟨n, v, hn, rfl, hrefused⟩

theorem interruptedFrom_ofVector_iff (hn : n ≠ 0) (v : Vector α n) :
    InterruptedFrom newton systems (.ofVector v) e ↔ InterruptedAt newton (systems n) v e := by
  constructor
  · rintro ⟨m, w, -, hv, hinterrupted⟩
    obtain ⟨rfl, hvw⟩ := Tensor.ofVector_inj hv
    rwa [eq_of_heq hvw]
  · intro hinterrupted
    exact ⟨n, v, hn, rfl, hinterrupted⟩

theorem goesOnFrom_ofVector_iff (hn : n ≠ 0) (v : Vector α n) :
    GoesOnFrom newton systems (.ofVector v) ↔ newton.GoesOn (systems n) v := by
  constructor
  · rintro ⟨m, w, -, hv, hon⟩
    obtain ⟨rfl, hvw⟩ := Tensor.ofVector_inj hv
    rwa [eq_of_heq hvw]
  · intro hon
    exact ⟨n, v, hn, rfl, hon⟩

/-- The failures of a run from any tensor, in order. -/
theorem result_runFrom_eq_error_iff (hdef : ∀ n, (systems n).NeverFaults)
    (hknown : ∀ n, (systems n).NeedsOnlyValues) (hp : newton.checkPivots = .ok ()) :
    (newton.runFrom systems y).result = .error e ↔
      RefusedFrom newton systems y e ∨
      ((∀ e', ¬RefusedFrom newton systems y e') ∧ newton.checkTolerances = .error e) ∨
      InterruptedFrom newton systems y e ∨ GoesOnFrom newton systems y ∧ e = .endless := by
  by_cases hshape : ∀ n, n ≠ 0 → y.shape ≠ [n]
  · rw [(runFrom_of_shape hshape).1]
    have hrefused : RefusedFrom newton systems y (.stateShape y.shape) := Or.inl ⟨hshape, rfl⟩
    constructor
    · intro h
      obtain rfl := Except.error.inj h
      exact Or.inl hrefused
    · rintro ((⟨-, rfl⟩ | ⟨n, v, hn, rfl, -⟩) | ⟨hno, -⟩ | ⟨n, v, hn, rfl, -⟩ |
        ⟨⟨n, v, hn, rfl, -⟩, -⟩)
      · rfl
      · exact absurd rfl (hshape n hn)
      · exact absurd hrefused (hno _)
      · exact absurd rfl (hshape n hn)
      · exact absurd rfl (hshape n hn)
  · obtain ⟨n, hn, hvector⟩ : ∃ n, n ≠ 0 ∧ y.shape = [n] := by
      simpa using hshape
    obtain ⟨v, rfl⟩ := Tensor.exists_eq_ofVector hvector
    simp only [refusedFrom_ofVector_iff hn, interruptedFrom_ofVector_iff hn,
      goesOnFrom_ofVector_iff hn]
    rw [runFrom_ofVector]
    exact value_run_eq_error_iff_cases (hdef n) (hknown n) hp hn

/-- A solution has as many components as the tensor has entries. -/
theorem shape_of_runFrom_eq_ok {solution : Solution α (newton.runFrom systems y).size}
    (h : (newton.runFrom systems y).result = .ok solution) :
    y.shape = [(newton.runFrom systems y).size] := by
  by_cases hshape : ∀ n, n ≠ 0 → y.shape ≠ [n]
  · rw [(runFrom_of_shape hshape).1] at h
    cases h
  · obtain ⟨n, -, hvector⟩ : ∃ n, n ≠ 0 ∧ y.shape = [n] := by
      simpa using hshape
    obtain ⟨v, rfl⟩ := Tensor.exists_eq_ofVector hvector
    rw [runFrom_ofVector]
    rfl

/-- A run that is refused at its start has evaluated the residual once at most, and the Jacobian
never. -/
theorem counts_of_refusedFrom (hdef : ∀ n, (systems n).NeverFaults)
    (hknown : ∀ n, (systems n).NeedsOnlyValues) (h : RefusedFrom newton systems y e) :
    (newton.runFrom systems y).journal.jacobianCount = 0 ∧
      (newton.runFrom systems y).journal.residualCount ≤ 1 := by
  rcases h with ⟨hshape, -⟩ | ⟨n, v, hn, rfl, hrefused⟩
  · obtain ⟨-, hjacobian, hresidual⟩ := runFrom_of_shape hshape
    exact ⟨hjacobian, by omega⟩
  · rw [runFrom_ofVector]
    exact counts_run_of_init_eq_error
      ((value_init_eq_error_iff_refusedAt (hdef n) (hknown n) hn).2 hrefused)

end Newton

/-! ## Accepted configurations -/

namespace Newton

variable [Elementary α] [Decomposes α] {solver : Solver} {systems : (n : Nat) → System α n}
  {y : Tensor α} {e : Failure}

/-- What refuses an accepted configuration is a misfit, or the policy is a text and the components
are too many for a mask. -/
theorem isMisfit_of_refusedFrom {settings : Settings} (hs : Solver.ofSettings settings = .ok solver)
    (h : RefusedFrom (solver.newton α) systems y e) :
    e.isMisfit = true ∨
      solver.machine.isExceeded y.shape.size ∧ ∃ s, solver.projection = .text s := by
  rcases h with ⟨-, rfl⟩ | ⟨n, v, -, rfl, hrefused⟩
  · exact Or.inl rfl
  · have hsize : (Tensor.ofVector v).shape.size = n := by
      simp [Tensor.ofVector, Shape.size]
    rw [hsize]
    cases hrefused with
    | residual _ _ => exact Or.inl rfl
    | jacobian _ _ _ _ => exact Or.inl rfl
    | policy _ _ _ hmask =>
      exact isMisfit_or_isExceeded_of_maskFor
        (Solver.storedPolicy_eq_ok (Solver.storedPolicy_of_ofSettings hs)) hmask

theorem isMisfit_of_interruptedFrom (h : InterruptedFrom (solver.newton α) systems y e) :
    e.isMisfit = true := by
  obtain ⟨n, v, -, -, hinterrupted⟩ := h
  cases hinterrupted with
  | jacobian _ _ _ _ _ => rfl
  | residual _ _ _ _ _ _ _ => rfl

/-- A run goes on for ever only if its counter cannot reach the budget. -/
theorem not_counts_of_goesOnFrom (h : GoesOnFrom (solver.newton α) systems y) :
    ¬solver.machine.Counts solver.maxSteps := by
  obtain ⟨n, v, -, -, hon⟩ := h
  exact fun hc => not_goesOn hc hon

/-- A run of an accepted configuration with a usable pivot threshold, of systems whose values are
tensors everywhere and whose Jacobian has a shape that is known in advance but for want of
numbers, fails in one of three ways, from any tensor : it is refused at its start; it is not, but
a tolerance is an integer that is too large, or an array of values that are no numbers; or it is
interrupted. If its counter cannot reach the budget it may also go on for ever. But for the
tolerances, and for a text with more components than the memory can hold, the cause is a misfit.
A solution has as many components as the tensor. What is refused has evaluated the residual
once at most, and the Jacobian never; and with fixed shapes, from an admissible start and with
tolerances that fit, there is a solution. -/
theorem run_fails_in_order {settings : Settings}
    (hs : Solver.ofSettings settings = .ok solver) (hp : solver.PivotsUsable)
    (hdef : ∀ n, (systems n).NeverFaults) (hknown : ∀ n, (systems n).NeedsOnlyValues)
    (y : Tensor α) :
    (∀ e, ((solver.newton α).runFrom systems y).result = .error e ↔
      RefusedFrom (solver.newton α) systems y e ∨
      ((∀ e', ¬RefusedFrom (solver.newton α) systems y e') ∧
        (solver.newton α).checkTolerances = .error e) ∨
      InterruptedFrom (solver.newton α) systems y e ∨
      GoesOnFrom (solver.newton α) systems y ∧ e = .endless) ∧
    (∀ e, ((solver.newton α).runFrom systems y).result = .error e →
      e.isMisfit = true ∨
      (e = .toleranceTooLarge ∨ e = .toleranceNotNumeric) ∧ ¬solver.TolerancesFit ∨
      solver.machine.isExceeded y.shape.size ∧ (∃ s, solver.projection = .text s) ∨
      e = .endless ∧ ¬solver.machine.Counts solver.maxSteps) ∧
    (∀ solution, ((solver.newton α).runFrom systems y).result = .ok solution →
      y.shape = [((solver.newton α).runFrom systems y).size]) ∧
    (∀ e, RefusedFrom (solver.newton α) systems y e →
      ((solver.newton α).runFrom systems y).journal.jacobianCount = 0 ∧
      ((solver.newton α).runFrom systems y).journal.residualCount ≤ 1) ∧
    (∀ n (v : Vector α n) s₀, y = .ofVector v → (systems n).FixedShapes →
      solver.TolerancesFit → ((solver.newton α).init (systems n) v).value = .ok s₀ →
      (∃ solution, ((solver.newton α).runFrom systems y).result = .ok solution) ∨
      GoesOnFrom (solver.newton α) systems y ∧ ¬solver.machine.Counts solver.maxSteps) := by
  have hfails := fun e => result_runFrom_eq_error_iff (y := y) (e := e) hdef hknown
    (Solver.checkPivots_newton hp)
  refine ⟨hfails, fun e he => ?_, fun solution hsolution => ?_, fun e he => ?_, ?_⟩
  · rcases (hfails e).1 he with h | ⟨-, h⟩ | h | ⟨h, rfl⟩
    · rcases isMisfit_of_refusedFrom hs h with h | h
      · exact Or.inl h
      · exact Or.inr (Or.inr (Or.inl h))
    · refine Or.inr (Or.inl ?_)
      have hfit : ¬solver.TolerancesFit := by
        intro hfit
        rw [Solver.checkTolerances_newton hfit] at h
        cases h
      refine ⟨?_, hfit⟩
      rcases Solver.checkTolerances_newton_of_not (α := α) hfit with h' | h'
      · exact Or.inl (Except.error.inj (h.symm.trans h'))
      · exact Or.inr (Except.error.inj (h.symm.trans h'))
    · exact Or.inl (isMisfit_of_interruptedFrom h)
    · exact Or.inr (Or.inr (Or.inr ⟨rfl, not_counts_of_goesOnFrom h⟩))
  · exact shape_of_runFrom_eq_ok hsolution
  · exact counts_of_refusedFrom hdef hknown he
  · rintro n v s₀ rfl hfixed hfit h₀
    have hn : n ≠ 0 := (value_init_eq_ok_iff.1 h₀).1
    rw [goesOnFrom_ofVector_iff hn, runFrom_ofVector]
    by_cases hon : (solver.newton α).GoesOn (systems n) v
    · exact Or.inr ⟨hon, fun hc => not_goesOn hc hon⟩
    · exact Or.inl (exists_solution_of_not_goesOn (isSquare_of_init (hdef n) hfixed h₀) h₀
        (Solver.checkTolerances_newton hfit) (Solver.checkPivots_newton hp) hon)

end Newton

/-- The equations `yᵢ - 1 = 0`, for any number of unknowns. -/
def unitEquations (n : Nat) : System Binary64 n :=
  .ofMaps (fun y => y.map (· - 1)) fun _ =>
    Vector.ofFn fun i => Vector.ofFn fun j => if i = j then 1 else 0

theorem neverFaults_unitEquations (n : Nat) : (unitEquations n).NeverFaults :=
  System.neverFaults_ofMaps _ _

theorem needsOnlyValues_unitEquations (n : Nat) : (unitEquations n).NeedsOnlyValues :=
  System.needsOnlyValues_ofMaps _ _

namespace Newton

/-- A start from three is admissible with the policy that clamps everything. -/
theorem exists_init_unitEquations (newton : Newton Binary64)
    (hmachine : newton.machine = {}) (h : newton.projection = .text nonnegative) :
    ∃ s₀, (newton.init (unitEquations 1) #v[⟨3⟩]).value = .ok s₀ := by
  refine ⟨_, value_init_eq_ok_iff.2 ⟨Nat.one_ne_zero, _, System.residualVector_ofMaps _ _ _, rfl,
    ⟨#v[true], ?_⟩, rfl⟩⟩
  rw [hmachine, h]
  rfl

/-- In the default configuration a single number is refused, before anything is evaluated, and
from three there is a solution with one component. -/
theorem run_unitEquations :
    ((Solver.standard.newton Binary64).runFrom unitEquations (.scalar ⟨3⟩)).result =
        .error (.stateShape []) ∧
      ((Solver.standard.newton Binary64).runFrom unitEquations
        (.scalar ⟨3⟩)).journal.jacobianCount = 0 ∧
      ∃ solution, ((Solver.standard.newton Binary64).runFrom unitEquations
        (.ofVector #v[⟨3⟩])).result = .ok solution := by
  obtain ⟨s₀, h₀⟩ := exists_init_unitEquations (Solver.standard.newton Binary64) rfl rfl
  obtain ⟨hfails, -, -, hcounts, -⟩ := run_fails_in_order Solver.ofSettings_standard
    Solver.pivotsUsable_standard neverFaults_unitEquations needsOnlyValues_unitEquations
    (.scalar (⟨3⟩ : Binary64))
  obtain ⟨-, -, -, -, hsolution⟩ := run_fails_in_order Solver.ofSettings_standard
    Solver.pivotsUsable_standard neverFaults_unitEquations needsOnlyValues_unitEquations
    (.ofVector (#v[⟨3⟩] : Vector Binary64 1))
  have hrefused : RefusedFrom (Solver.standard.newton Binary64) unitEquations (.scalar ⟨3⟩)
      (.stateShape []) := Or.inl ⟨fun n _ h => (List.cons_ne_nil _ _ h.symm), rfl⟩
  refine ⟨(hfails _).2 (Or.inl hrefused), (hcounts _ hrefused).1, ?_⟩
  exact (hsolution 1 _ s₀ rfl (System.fixedShapes_ofMaps _ _) Solver.tolerancesFit_standard
    h₀).resolve_right fun hon => hon.2 Solver.counts_standard

/-- The default configuration with an integer tolerance of more than 64 bits. -/
def wideSolver : Solver :=
  { Solver.standard with atol := .int 10000000000000000000 }

/-- Runs that fail though the Jacobian and the residual have values of the right shapes everywhere,
the start is a vector with a mask, and the cause is no misfit. With an integer tolerance of
more than 64 bits, which is accepted, the first look at the flags fails. With a budget that the
counter cannot reach there is no end. -/
theorem run_of_right_shapes_fails :
    (∃ solver, Solver.ofSettings { atol := .int 10000000000000000000 } = .ok solver ∧
      solver.pivotRtol = .nothing ∧ (∀ n, (unitEquations n).NeverFaults) ∧
      (∀ e, ¬RefusedFrom (solver.newton Binary64) unitEquations (.ofVector #v[⟨3⟩]) e) ∧
      (∀ e, ¬InterruptedFrom (solver.newton Binary64) unitEquations (.ofVector #v[⟨3⟩]) e) ∧
      ((solver.newton Binary64).runFrom unitEquations (.ofVector #v[⟨3⟩])).result =
        .error .toleranceTooLarge) ∧
    ((endlessSolver.newton Binary32).runFrom (fun n => .ofMaps (fun _ => .replicate n 1) fun _ =>
      .replicate n (.replicate n 1)) (.ofVector #v[0])).result = .error .endless ∧
    [Failure.toleranceTooLarge, .endless].all (!·.isMisfit) := by
  refine ⟨?_, ?_, rfl⟩
  · have hwide : (wideSolver.newton Binary64).checkTolerances = .error .toleranceTooLarge := rfl
    obtain ⟨s₀, h₀⟩ := exists_init_unitEquations (wideSolver.newton Binary64) rfl rfl
    have hrefused : ∀ e, ¬RefusedFrom (wideSolver.newton Binary64) unitEquations
        (.ofVector #v[⟨3⟩]) e := by
      intro e h
      rw [refusedFrom_ofVector_iff Nat.one_ne_zero, ← value_init_eq_error_iff_refusedAt
        (neverFaults_unitEquations 1) (needsOnlyValues_unitEquations 1) Nat.one_ne_zero, h₀] at h
      cases h
    have hinterrupted : ∀ e, ¬InterruptedFrom (wideSolver.newton Binary64) unitEquations
        (.ofVector #v[⟨3⟩]) e := by
      intro e h
      rw [interruptedFrom_ofVector_iff Nat.one_ne_zero] at h
      have hno : ∀ k y s,
          ¬Visits (wideSolver.newton Binary64) (unitEquations 1) #v[⟨3⟩] k y s := by
        intro k y s hvisit
        have hfit := hvisit.checkTolerances
        rw [hwide] at hfit
        cases hfit
      cases h with
      | jacobian hvisit _ _ _ _ => exact hno _ _ _ hvisit
      | residual hvisit _ _ _ _ _ _ => exact hno _ _ _ hvisit
    refine ⟨wideSolver, rfl, rfl, neverFaults_unitEquations, hrefused, hinterrupted, ?_⟩
    exact (result_runFrom_eq_error_iff neverFaults_unitEquations needsOnlyValues_unitEquations
      rfl).2 (Or.inr (Or.inl ⟨hrefused, hwide⟩))
  · rw [runFrom_ofVector]
    exact run_rootlessEquation

end Newton

end Stationary
