import Stationary.Newton
import Stationary.Proofs.Recording

/-!
# Walks

`Newton.walk` is the start with its state, and then one step after the other, whatever
the flags say : the iterates that a driver chooses from. What a single step does is said
once, by `Newton.value_step_eq_ok_iff`, and what the start does by
`Newton.value_init_eq_ok_iff`; everything on walks follows from these two.

`Newton.Tracks` relates a state to the walk that it belongs to : the counter shows the number
of steps, the stored residual is the residual at the iterate and not at an earlier one,
and the two norms are those of the residuals at the iterate and at the start.
`Newton.tracks_walk` says that all states of a walk do so, usable steps or not.
-/

namespace Stationary

variable {α : Type} {n : Nat}

open Journaled

/-! ## Values of a system -/

namespace System

/-- The residual at `y` as a vector of the length of `y`. -/
def residualVector (system : System α n) (y : Vector α n) : Except Failure (Vector α n) :=
  match system.residual y with
  | .error f => .error (.fault f)
  | .ok t =>
    match t.toVector? n with
    | some f => .ok f
    | none => .error (.residualShape t.shape n)

/-- The Jacobian at `y` as a square matrix. -/
def jacobianMatrix (system : System α n) (y : Vector α n) : Except Failure (SquareMatrix α n) :=
  match system.jacobian y with
  | .error f => .error (.fault f)
  | .ok t =>
    match t.toMatrix? n with
    | some A => .ok A
    | none => .error (.jacobianShape t.shape n)

/-- Residual and Jacobian have values of the right shapes everywhere. -/
structure IsSquare (system : System α n) : Prop where
  residual : ∀ y, ∃ f, system.residualVector y = .ok f
  jacobian : ∀ y, ∃ A, system.jacobianMatrix y = .ok A

variable (system : System α n) (y : Vector α n)

@[simp] theorem residualVector_ofMaps (F : Vector α n → Vector α n)
    (J : Vector α n → SquareMatrix α n) : (ofMaps F J).residualVector y = .ok (F y) := by
  simp [residualVector, ofMaps]

@[simp] theorem jacobianMatrix_ofMaps (F : Vector α n → Vector α n)
    (J : Vector α n → SquareMatrix α n) : (ofMaps F J).jacobianMatrix y = .ok (J y) := by
  simp [jacobianMatrix, ofMaps]

theorem isSquare_ofMaps (F : Vector α n → Vector α n) (J : Vector α n → SquareMatrix α n) :
    (ofMaps F J).IsSquare :=
  ⟨fun y => ⟨F y, residualVector_ofMaps y F J⟩, fun y => ⟨J y, jacobianMatrix_ofMaps y F J⟩⟩

theorem residualAt_eq : system.residualAt y =
    (record (.residual y) >>= fun _ => ofExcept id (system.residualVector y)) := by
  unfold residualAt residualVector
  cases system.residual y with
  | error f => rfl
  | ok t =>
    simp only [Journaled.ofExcept, pure_bind]
    cases t.toVector? n <;> rfl

theorem jacobianAt_eq : system.jacobianAt y =
    (record (.jacobian y) >>= fun _ => ofExcept id (system.jacobianMatrix y)) := by
  unfold jacobianAt jacobianMatrix
  cases system.jacobian y with
  | error f => rfl
  | ok t =>
    simp only [Journaled.ofExcept, pure_bind]
    cases t.toMatrix? n <;> rfl

instance recording_residualAt : Recording (system.residualAt y) := by
  rw [residualAt_eq]
  infer_instance

instance recording_jacobianAt : Recording (system.jacobianAt y) := by
  rw [jacobianAt_eq]
  infer_instance

@[simp] theorem value_residualAt : (system.residualAt y).value = system.residualVector y := by
  rw [residualAt_eq, value_bind, value_ofExcept, mapError_id]
  rfl

@[simp] theorem value_jacobianAt : (system.jacobianAt y).value = system.jacobianMatrix y := by
  rw [jacobianAt_eq, value_bind, value_ofExcept, mapError_id]
  rfl

instance recording_checkJacobianShape : Recording system.checkJacobianShape := by
  unfold checkJacobianShape
  cases system.jacobianShape with
  | ok s =>
    dsimp only
    split
    · exact Recording.pure ()
    · exact Recording.throw _
  | error f =>
    dsimp only
    split
    · exact Recording.record _
    · exact Recording.throw _

end System

/-! ## The start and one step -/

/-- The state at a start with residual `f`. -/
def State.initial [Scalar α] (f : Vector α n) : State α n where
  steps := 0
  residual := f
  norm := Vec.norm f
  initialNorm := Vec.norm f
  stepFailed := false

/-- The state after the linear step `d` to an iterate with residual `f`. -/
def State.after [Scalar α] (machine : Machine) (s : State α n) (d : LinearStep α n)
    (f : Vector α n) : State α n where
  steps := machine.next s.steps
  residual := f
  norm := Vec.norm f
  initialNorm := s.initialNorm
  stepFailed := !d.usable

namespace Newton

variable [Scalar α] (newton : Newton α) (system : System α n)

theorem init_eq (y : Vector α n) (hn : n ≠ 0) : newton.init system y =
    (system.residualAt y >>= fun f => system.checkJacobianShape >>= fun _ =>
      Journaled.ofExcept .policy (maskFor newton.machine newton.projection n) >>= fun _ =>
        pure (State.initial f)) := by
  unfold init
  rw [if_neg hn]
  rfl

theorem init_eq_throw (y : Vector α n) (hn : n = 0) :
    newton.init system y = throw (.stateShape [0]) := by
  unfold init
  rw [if_pos hn]
  rfl

instance recording_init (y : Vector α n) : Recording (newton.init system y) := by
  by_cases hn : n = 0
  · rw [init_eq_throw newton system y hn]
    infer_instance
  · rw [init_eq newton system y hn]
    infer_instance

variable {newton system} {y y' : Vector α n} {s s' : State α n}

/-- What the start does : it needs a residual, an admissible shape of the Jacobian and a mask,
and its state is that of the residual. -/
theorem value_init_eq_ok_iff : (newton.init system y).value = .ok s ↔
    n ≠ 0 ∧ ∃ f, system.residualVector y = .ok f ∧ system.checkJacobianShape.value = .ok () ∧
      (∃ mask, maskFor newton.machine newton.projection n = .ok mask) ∧ s = .initial f := by
  by_cases hn : n = 0
  · simp [init_eq_throw newton system y hn, hn]
  · rw [init_eq newton system y hn]
    simp only [value_bind, bind_eq_ok_iff, System.value_residualAt, value_ofExcept,
      mapError_eq_ok_iff, value_pure, Except.ok.injEq]
    constructor
    · rintro ⟨f, hf, _, hshape, mask, hm, rfl⟩
      exact ⟨hn, f, hf, hshape, ⟨mask, hm⟩, rfl⟩
    · rintro ⟨-, f, hf, hshape, ⟨mask, hm⟩, rfl⟩
      exact ⟨f, hf, (), hshape, mask, hm, rfl⟩

/-- With two functions of the right shapes every start has a state, if the policy has a mask. -/
theorem value_init_ofMaps (hn : n ≠ 0) {mask : Vector Bool n}
    (hm : maskFor newton.machine newton.projection n = .ok mask) (F : Vector α n → Vector α n)
    (J : Vector α n → SquareMatrix α n) (y : Vector α n) :
    (newton.init (.ofMaps F J) y).value = .ok (.initial (F y)) := by
  have hshape : (System.ofMaps F J).checkJacobianShape.value = .ok () := by
    unfold System.checkJacobianShape
    exact congrArg Journaled.value (if_pos rfl)
  exact value_init_eq_ok_iff.2
    ⟨hn, F y, System.residualVector_ofMaps y F J, hshape, ⟨mask, hm⟩, rfl⟩

/-- The start fails for the first of its conditions that does not hold. -/
theorem value_init_eq_error_iff {e : Failure} (hn : n ≠ 0) :
    (newton.init system y).value = .error e ↔ system.residualVector y = .error e ∨
      ∃ f, system.residualVector y = .ok f ∧ (system.checkJacobianShape.value = .error e ∨
        system.checkJacobianShape.value = .ok () ∧
          ∃ cause, maskFor newton.machine newton.projection n = .error cause ∧
            .policy cause = e) := by
  rw [init_eq newton system y hn]
  simp only [value_bind, bind_eq_error_iff, System.value_residualAt, value_ofExcept,
    mapError_eq_error_iff, value_pure, reduceCtorEq, and_false, exists_false, or_false]
  constructor
  · rintro (h | ⟨f, hf, h | ⟨_, hshape, h⟩⟩)
    · exact Or.inl h
    · exact Or.inr ⟨f, hf, Or.inl h⟩
    · exact Or.inr ⟨f, hf, Or.inr ⟨hshape, h⟩⟩
  · rintro (h | ⟨f, hf, h | ⟨hshape, h⟩⟩)
    · exact Or.inl h
    · exact Or.inr ⟨f, hf, Or.inl h⟩
    · exact Or.inr ⟨f, hf, Or.inr ⟨(), hshape, h⟩⟩

/-- A linear step that cannot be used leaves the iterate alone. -/
theorem advance_of_unusable (mask : Vector Bool n) (y : Vector α n) {d : LinearStep α n}
    (hu : d.usable = false) : advance mask y d = y := by
  unfold advance
  rw [hu]
  rfl

theorem get_advance_of_usable (mask : Vector Bool n) (y : Vector α n) {d : LinearStep α n}
    (hu : d.usable = true) (i : Fin n) : (advance mask y d).get i =
      if mask.get i then Scalar.max (y.get i + d.delta.get i) 0
      else y.get i + d.delta.get i := by
  unfold advance
  rw [if_pos hu, get_clamp, Vec.get_add]

variable [Decomposes α]

theorem step_eq : newton.step system y s =
    (Journaled.ofExcept .policy (maskFor newton.machine newton.projection n) >>= fun mask =>
      system.jacobianAt y >>= fun A =>
        Journaled.ofExcept id (newton.linearStep A (Vec.neg s.residual)) >>= fun d =>
          system.residualAt (advance mask y d) >>= fun f =>
            pure (advance mask y d, s.after newton.machine d f)) :=
  rfl

variable (newton system y s) in
instance recording_step : Recording (newton.step system y s) := by
  rw [step_eq]
  infer_instance

/-- The result of a step, where the first part that has none decides on the failure. -/
theorem value_step : (newton.step system y s).value =
    ((maskFor newton.machine newton.projection n).mapError .policy).bind fun mask =>
      (system.jacobianMatrix y).bind fun A =>
        (newton.linearStep A (Vec.neg s.residual)).bind fun d =>
          (system.residualVector (advance mask y d)).bind fun f =>
            .ok (advance mask y d, s.after newton.machine d f) := by
  rw [step_eq]
  simp only [value_bind, value_ofExcept, mapError_id, System.value_jacobianAt,
    System.value_residualAt, value_pure]

/-- A linear step is one of least squares, or one by elimination with a threshold that is left out
or asked for. -/
theorem linearStep_eq_ok_iff {A : SquareMatrix α n} {b : Vector α n} {d : LinearStep α n} :
    newton.linearStep A b = .ok d ↔
      (newton.linearMethod = .leastSquares ∧ d = .leastSquares A b) ∨
      (newton.linearMethod = .lu ∧ ∃ r, (newton.pivotRtol = .standard ∧
        r = LinearStep.standardPivotRtol n ∨ newton.pivotRtol = .relative r) ∧
          d = .lu A b r) := by
  unfold linearStep
  cases newton.linearMethod with
  | leastSquares => simp [eq_comm]
  | lu => cases newton.pivotRtol <;> simp [eq_comm]

/-- A linear step that can be used has finite components. -/
theorem allFinite_of_usable {A : SquareMatrix α n} {b : Vector α n} {d : LinearStep α n}
    (h : newton.linearStep A b = .ok d) (hu : d.usable = true) :
    Vec.allFinite d.delta = true := by
  rcases linearStep_eq_ok_iff.1 h with ⟨-, rfl⟩ | ⟨-, r, -, rfl⟩
  · exact hu
  · exact (Bool.and_eq_true_iff.1 hu).2

/-- What one step does : it solves with the Jacobian at the iterate and the stored residual,
moves the iterate, and its state is that of the residual at the new iterate. -/
theorem value_step_eq_ok_iff : (newton.step system y s).value = .ok (y', s') ↔
    ∃ mask A d f, maskFor newton.machine newton.projection n = .ok mask ∧
      system.jacobianMatrix y = .ok A ∧ newton.linearStep A (Vec.neg s.residual) = .ok d ∧
      y' = advance mask y d ∧
      system.residualVector y' = .ok f ∧ s' = s.after newton.machine d f := by
  rw [value_step]
  simp only [bind_eq_ok_iff, mapError_eq_ok_iff, Except.ok.injEq, Prod.mk.injEq]
  constructor
  · rintro ⟨mask, hm, A, hA, d, hd, f, hf, rfl, rfl⟩
    exact ⟨mask, A, d, f, hm, hA, hd, rfl, hf, rfl⟩
  · rintro ⟨mask, A, d, f, hm, hA, hd, rfl, hf, rfl⟩
    exact ⟨mask, hm, A, hA, d, hd, f, hf, rfl, rfl⟩

/-- A step fails for the first of the things it needs that is not there. -/
theorem value_step_eq_error_iff {e : Failure} : (newton.step system y s).value = .error e ↔
    (∃ cause, maskFor newton.machine newton.projection n = .error cause ∧ .policy cause = e) ∨
    ∃ mask, maskFor newton.machine newton.projection n = .ok mask ∧
      (system.jacobianMatrix y = .error e ∨
      ∃ A, system.jacobianMatrix y = .ok A ∧
        (newton.linearStep A (Vec.neg s.residual) = .error e ∨
          ∃ d, newton.linearStep A (Vec.neg s.residual) = .ok d ∧
            system.residualVector (advance mask y d) = .error e)) := by
  rw [value_step]
  simp only [bind_eq_error_iff, mapError_eq_error_iff, mapError_eq_ok_iff, reduceCtorEq,
    and_false, exists_false, or_false]

/-- `d` is the linear step that a step from `y` in state `s` solves for. -/
def Solves (newton : Newton α) (system : System α n) (y : Vector α n) (s : State α n)
    (d : LinearStep α n) : Prop :=
  ∃ A, system.jacobianMatrix y = .ok A ∧ newton.linearStep A (Vec.neg s.residual) = .ok d

theorem Solves.unique {d d' : LinearStep α n} (h : newton.Solves system y s d)
    (h' : newton.Solves system y s d') : d = d' := by
  obtain ⟨A, hA, hd⟩ := h
  obtain ⟨A', hA', hd'⟩ := h'
  obtain rfl : A = A' := Except.ok.inj (hA.symm.trans hA')
  exact Except.ok.inj (hd.symm.trans hd')

/-- By elimination a step solves with a threshold that is left out or asked for. -/
theorem Solves.eq_lu {d : LinearStep α n} (h : newton.Solves system y s d)
    (hlu : newton.linearMethod = .lu) :
    ∃ A r, system.jacobianMatrix y = .ok A ∧ (newton.pivotRtol = .standard ∧
      r = LinearStep.standardPivotRtol n ∨ newton.pivotRtol = .relative r) ∧
        d = .lu A (Vec.neg s.residual) r := by
  obtain ⟨A, hA, hd⟩ := h
  rcases linearStep_eq_ok_iff.1 hd with ⟨hls, -⟩ | ⟨-, r, hr, rfl⟩
  · rw [hlu] at hls
    cases hls
  · exact ⟨A, r, hA, hr, rfl⟩

/-- A step fails if what it solves for cannot be used. -/
theorem stepFailed_step (h : (newton.step system y s).value = .ok (y', s')) :
    ∃ d, newton.Solves system y s d ∧ s'.stepFailed = !d.usable := by
  obtain ⟨-, A, d, f, -, hA, hd, -, -, rfl⟩ := value_step_eq_ok_iff.1 h
  exact ⟨d, ⟨A, hA, hd⟩, rfl⟩

/-! ## Walks -/

/-- The iterate and the state after `k` steps from the start `y`, whatever the flags say. -/
def walk (newton : Newton α) (system : System α n) (y : Vector α n) :
    Nat → Except Failure (Vector α n × State α n)
  | 0 => (newton.init system y).value.map (y, ·)
  | k + 1 => (walk newton system y k).bind fun p => (newton.step system p.1 p.2).value

variable {y₀ : Vector α n} {k : Nat}

theorem walk_zero_eq_ok_iff : newton.walk system y₀ 0 = .ok (y, s) ↔
    y = y₀ ∧ (newton.init system y₀).value = .ok s := by
  unfold walk
  cases (newton.init system y₀).value with
  | ok t => simp [Except.map, eq_comm]
  | error e => simp [Except.map]

theorem walk_succ_of_ok (h : newton.walk system y₀ k = .ok (y, s)) :
    newton.walk system y₀ (k + 1) = (newton.step system y s).value := by
  rw [walk, h]
  rfl

theorem walk_succ_eq_ok_iff {p : Vector α n × State α n} : newton.walk system y₀ (k + 1) = .ok p ↔
    ∃ y s, newton.walk system y₀ k = .ok (y, s) ∧ (newton.step system y s).value = .ok p := by
  rw [walk, bind_eq_ok_iff]
  exact Prod.exists

/-- The state `s` at the iterate `y` is as a state after `k` steps from `y₀` should be. -/
structure Tracks (machine : Machine) (system : System α n) (y₀ : Vector α n) (k : Nat)
    (y : Vector α n) (s : State α n) : Prop where
  steps : s.steps = machine.counted k
  residual : system.residualVector y = .ok s.residual
  norm : s.norm = Vec.norm s.residual
  initialNorm : ∃ f₀, system.residualVector y₀ = .ok f₀ ∧ s.initialNorm = Vec.norm f₀

omit [Decomposes α] in
theorem Tracks.start (h : (newton.init system y₀).value = .ok s) :
    Tracks newton.machine system y₀ 0 y₀ s := by
  obtain ⟨-, f, hf, -, -, rfl⟩ := value_init_eq_ok_iff.1 h
  exact ⟨Machine.counted_zero.symm, hf, rfl, f, hf, rfl⟩

theorem Tracks.step (ht : Tracks newton.machine system y₀ k y s)
    (h : (newton.step system y s).value = .ok (y', s')) :
    Tracks newton.machine system y₀ (k + 1) y' s' := by
  obtain ⟨-, -, d, f, -, -, -, -, hf, rfl⟩ := value_step_eq_ok_iff.1 h
  exact ⟨by rw [State.after, ht.steps, Machine.next_counted], hf, rfl, ht.initialNorm⟩

theorem tracks_walk (h : newton.walk system y₀ k = .ok (y, s)) :
    Tracks newton.machine system y₀ k y s := by
  induction k generalizing y s with
  | zero =>
    obtain ⟨rfl, h⟩ := walk_zero_eq_ok_iff.1 h
    exact Tracks.start h
  | succ k ih =>
    obtain ⟨z, t, hz, h⟩ := walk_succ_eq_ok_iff.1 h
    exact (ih hz).step h

/-- A state says that a step has failed if the last linear step of its walk cannot be used. -/
theorem stepFailed_walk (h : newton.walk system y₀ k = .ok (y, s)) : s.stepFailed = true ↔
    ∃ j z t d, k = j + 1 ∧ newton.walk system y₀ j = .ok (z, t) ∧ newton.Solves system z t d ∧
      d.usable = false := by
  cases k with
  | zero =>
    obtain ⟨rfl, h⟩ := walk_zero_eq_ok_iff.1 h
    obtain ⟨-, f, -, -, -, rfl⟩ := value_init_eq_ok_iff.1 h
    simp [State.initial]
  | succ k =>
    obtain ⟨z, t, hz, h⟩ := walk_succ_eq_ok_iff.1 h
    obtain ⟨d, hd, hfailed⟩ := stepFailed_step h
    constructor
    · intro hs
      exact ⟨k, z, t, d, rfl, hz, hd, by simpa [hs] using hfailed.symm⟩
    · rintro ⟨j, z', t', d', hj, hz', hd', hu⟩
      obtain rfl : k = j := by omega
      obtain ⟨rfl, rfl⟩ := Prod.mk.inj (Except.ok.inj (hz.symm.trans hz'))
      rw [hfailed, hd.unique hd', hu]
      rfl

/-! ## Systems with values of the right shapes -/

variable {s₀ : State α n}

/-- A linear step has a result if the pivot threshold can be used, and fails for this reason
otherwise. -/
theorem linearStep_eq (A : SquareMatrix α n) (b : Vector α n) :
    ∃ d, newton.linearStep A b = newton.checkPivots.map fun _ => d := by
  unfold checkPivots linearStep
  cases newton.linearMethod with
  | leastSquares => exact ⟨_, rfl⟩
  | lu =>
    cases newton.pivotRtol with
    | standard => exact ⟨_, rfl⟩
    | relative r => exact ⟨_, rfl⟩
    | unusable => exact ⟨.lu A b (LinearStep.standardPivotRtol n), rfl⟩

/-- With values of the right shapes and a usable pivot threshold every step has a result. -/
theorem exists_step (hsq : system.IsSquare) (hp : newton.checkPivots = .ok ())
    {mask : Vector Bool n} (hm : maskFor newton.machine newton.projection n = .ok mask)
    (y : Vector α n) (s : State α n) : ∃ y' s', (newton.step system y s).value = .ok (y', s') := by
  obtain ⟨A, hA⟩ := hsq.jacobian y
  obtain ⟨d, hd⟩ := newton.linearStep_eq A (Vec.neg s.residual)
  rw [hp] at hd
  obtain ⟨f, hf⟩ := hsq.residual (advance mask y d)
  exact ⟨_, _, value_step_eq_ok_iff.2 ⟨mask, A, d, f, hm, hA, hd, rfl, hf, rfl⟩⟩

theorem exists_walk (hsq : system.IsSquare) (hp : newton.checkPivots = .ok ())
    (h₀ : (newton.init system y₀).value = .ok s₀) (k : Nat) :
    ∃ y s, newton.walk system y₀ k = .ok (y, s) := by
  induction k with
  | zero => exact ⟨y₀, s₀, walk_zero_eq_ok_iff.2 ⟨rfl, h₀⟩⟩
  | succ k ih =>
    obtain ⟨y, s, hk⟩ := ih
    obtain ⟨-, -, -, -, ⟨mask, hm⟩, -⟩ := value_init_eq_ok_iff.1 h₀
    rw [walk_succ_of_ok hk]
    exact exists_step hsq hp hm y s

/-- A step whose pivot threshold cannot be used fails for this reason. -/
theorem value_step_of_unusable {e : Failure} (hsq : system.IsSquare)
    (hp : newton.checkPivots = .error e) {mask : Vector Bool n}
    (hm : maskFor newton.machine newton.projection n = .ok mask) (y : Vector α n) (s : State α n) :
    (newton.step system y s).value = .error e := by
  obtain ⟨A, hA⟩ := hsq.jacobian y
  obtain ⟨d, hd⟩ := newton.linearStep_eq A (Vec.neg s.residual)
  rw [hp] at hd
  rw [value_step, hm, hA]
  show (newton.linearStep A (Vec.neg s.residual)).bind _ = _
  rw [hd]
  rfl

end Newton

end Stationary
