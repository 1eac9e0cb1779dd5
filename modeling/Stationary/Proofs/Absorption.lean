import Stationary.Session
import Stationary.Proofs.Budget
import Stationary.Proofs.Exclusive

/-!
# Steps that fail for good

A step that cannot be used changes neither the iterate nor the residual, and these two are all
that the next step depends on. So it cannot be used either, and nothing but the counter ever
changes again. The flag of a state is not kept from one step to the next : that it stays up is
this argument, an induction on the number of further steps (`Newton.stepTimes_stuck`).

The state must hold the residual at its iterate, and nothing else is asked of it. Its norm is
computed anew by every step, and so it stays if it was that of the residual, as it is after
the start and after every step (`Newton.failed_step_absorbs`). A caller who steps by hand can
put an iterate of another format under a state : then the norm is that of the wider format,
or even the next linear step another one. And the counter wraps around, and a tolerance that
does not fit cannot be compared with, after a step that failed as after any other one
(`Session.absorption_fails`).
-/

set_option linter.unusedSectionVars false

namespace Stationary

variable {α : Type} {n : Nat} [Scalar α]

/-- The state after a step that could not be used, with the norm computed anew. -/
def State.stuck (machine : Machine) (s : State α n) : State α n :=
  { s.failed machine with norm := Vec.norm s.residual }

/-- The state with `j` more steps counted. -/
def State.later (machine : Machine) (s : State α n) (j : Nat) : State α n :=
  { s with steps := machine.integers.wrap (s.steps + j) }

theorem State.stuck_eq_failed {machine : Machine} {s : State α n}
    (h : s.norm = Vec.norm s.residual) : s.stuck machine = s.failed machine := by
  unfold stuck
  rw [← h]
  rfl

theorem State.later_zero (machine : Machine) (s : State α n) :
    (s.stuck machine).later machine 0 = s.stuck machine := by
  have hsteps : machine.integers.wrap (machine.next s.steps + (0 : Nat)) =
      machine.next s.steps := by
    rw [Machine.next, Machine.wrap_wrap_add]
    exact congrArg machine.integers.wrap (Int.add_zero _)
  unfold later
  exact congrArg (fun i => { s.stuck machine with steps := i }) hsteps

theorem State.stuck_later (machine : Machine) (s : State α n) (j : Nat) :
    ((s.stuck machine).later machine j).stuck machine =
      (s.stuck machine).later machine (j + 1) := by
  have hsteps : machine.next (machine.integers.wrap (machine.next s.steps + j)) =
      machine.integers.wrap (machine.next s.steps + (j + 1 : Nat)) := by
    rw [Machine.next, Machine.wrap_wrap_add, Int.add_assoc]
    rfl
  exact congrArg (fun i => { s.stuck machine with steps := i }) hsteps

namespace Newton

section Steps

variable [Decomposes α] {newton : Newton α} {system : System α n} {y : Vector α n}
  {s : State α n} {mask : Vector Bool n} {d : LinearStep α n}

/-- The iterate and the state after `j` steps from `y` in state `s`, whatever the flags say. -/
def stepTimes (newton : Newton α) (system : System α n) :
    Nat → Vector α n → State α n → Except Failure (Vector α n × State α n)
  | 0, y, s => .ok (y, s)
  | j + 1, y, s =>
    (newton.step system y s).value.bind fun p => stepTimes newton system j p.1 p.2

/-- A step whose linear step cannot be used, in a state with the residual at the iterate, only
counts itself and computes the norm anew. -/
theorem value_step_of_failed (hm : maskFor newton.machine newton.projection n = .ok mask)
    (hres : system.residualVector y = .ok s.residual) (hd : newton.Solves system y s d)
    (hu : d.usable = false) :
    (newton.step system y s).value = .ok (y, s.stuck newton.machine) := by
  obtain ⟨A, hA, hd⟩ := hd
  have hy : y = advance mask y d := (advance_of_unusable mask y hu).symm
  have hafter : s.stuck newton.machine = s.after newton.machine d s.residual := by
    unfold State.after
    rw [hu]
    rfl
  exact value_step_eq_ok_iff.2 ⟨mask, A, d, s.residual, hm, hA, hd, hy, hres, hafter⟩

/-- After a step that could not be used no other one can. -/
theorem stepTimes_stuck (hm : maskFor newton.machine newton.projection n = .ok mask)
    (hres : system.residualVector y = .ok s.residual) (hd : newton.Solves system y s d)
    (hu : d.usable = false) (i j : Nat) :
    newton.stepTimes system j y ((s.stuck newton.machine).later newton.machine i) =
      .ok (y, (s.stuck newton.machine).later newton.machine (i + j)) := by
  induction j generalizing i with
  | zero => rfl
  | succ j ih =>
    -- the residual is the old one, so the linear step is too
    have hstep : (newton.step system y ((s.stuck newton.machine).later newton.machine i)).value =
        .ok (y, ((s.stuck newton.machine).later newton.machine i).stuck newton.machine) :=
      value_step_of_failed hm hres hd hu
    rw [State.stuck_later] at hstep
    have hcount : i + (j + 1) = i + 1 + j := by omega
    rw [stepTimes, hstep, hcount]
    exact ih (i + 1)

/-- From an iterate with its residual in the state, a step whose linear step cannot be used has a
result : the iterate and the residual stay, and so does the norm if it was that of the
residual, as in every state that the start and any steps lead to. After any number of further
steps only the counter is another one. To ask whether to stop fails before and after in the
same way, or has the same answer, which is that it is time to stop; it fails only if the
tolerances do not fit or the threshold has axes. -/
theorem failed_step_absorbs (newton : Newton α) (system : System α n) (y : Vector α n)
    (s : State α n) (hm : maskFor newton.machine newton.projection n = .ok mask)
    (hres : system.residualVector y = .ok s.residual) (hd : newton.Solves system y s d)
    (hu : d.usable = false) :
    (newton.step system y s).value = .ok (y, s.stuck newton.machine) ∧
    ((s.stuck newton.machine).residual = s.residual ∧
      (s.stuck newton.machine).initialNorm = s.initialNorm ∧
      (s.stuck newton.machine).norm = Vec.norm s.residual ∧
      (s.stuck newton.machine).stepFailed = true) ∧
    (s.norm = Vec.norm s.residual → (s.stuck newton.machine).norm = s.norm) ∧
    (∀ y₀ k, newton.walk system y₀ k = .ok (y, s) → (s.stuck newton.machine).norm = s.norm) ∧
    (newton.Decides →
      ∃ verdict, newton.terminate (s.stuck newton.machine) = .ok (true, verdict)) ∧
    ∀ j, newton.stepTimes system j y (s.stuck newton.machine) =
        .ok (y, (s.stuck newton.machine).later newton.machine j) ∧
      newton.terminate ((s.stuck newton.machine).later newton.machine j) =
        newton.terminate (s.stuck newton.machine) := by
  have hnorm : s.norm = Vec.norm s.residual → (s.stuck newton.machine).norm = s.norm := Eq.symm
  refine ⟨value_step_of_failed hm hres hd hu, ⟨rfl, rfl, rfl, rfl⟩, hnorm,
    fun y₀ k hwalk => hnorm (tracks_walk hwalk).norm, fun hdecides => ?_, fun j => ⟨?_, rfl⟩⟩
  · have hflag : (newton.status (s.stuck newton.machine)).decision.1 = true := by
      have hup : (newton.status (s.stuck newton.machine)).singular = true := rfl
      show (newton.status (s.stuck newton.machine)).raised = true
      rw [Flags.raised, hup, Bool.or_true, Bool.true_or]
    rw [terminate_eq hdecides]
    exact ⟨_, congrArg Except.ok (Prod.ext hflag rfl)⟩
  · have hstay := stepTimes_stuck hm hres hd hu 0 j
    rw [Nat.zero_add, State.later_zero] at hstay
    exact hstay

end Steps

/-- From three, in the default configuration and with a Jacobian that is zero, the step fails and so
do all others; iterate, residual and norm stay, and the decision is that it is singular. -/
theorem failed_step_flatEquation :
    ((Solver.standard.newton Binary64).step flatEquation #v[⟨3⟩] (.initial #v[⟨2⟩])).value =
        .ok (#v[⟨3⟩], (State.initial #v[⟨2⟩]).failed {}) ∧
      ∀ j, (Solver.standard.newton Binary64).stepTimes flatEquation j #v[⟨3⟩]
          ((State.initial #v[⟨2⟩]).failed {}) =
            .ok (#v[⟨3⟩], ((State.initial #v[⟨2⟩]).failed {}).later {} j) ∧
        (Solver.standard.newton Binary64).terminate
          (((State.initial #v[⟨2⟩]).failed {}).later {} j) = .ok (true, .singular) := by
  have hmask : maskFor {} Solver.standard.projection 1 = .ok #v[true] := rfl
  have hres : flatEquation.residualVector #v[⟨3⟩] = .ok #v[⟨2⟩] := by
    rw [flatEquation, System.residualVector_ofMaps]
    exact congrArg Except.ok (by decide +kernel)
  have hsolves : (Solver.standard.newton Binary64).Solves flatEquation #v[⟨3⟩]
      (.initial #v[⟨2⟩]) (.lu #v[#v[0]] (Vec.neg #v[⟨2⟩]) (LinearStep.standardPivotRtol 1)) :=
    ⟨#v[#v[0]], System.jacobianMatrix_ofMaps _ _ _, rfl⟩
  have hstuck : (State.initial (#v[⟨2⟩] : Vector Binary64 1)).stuck
      (Solver.standard.newton Binary64).machine = (State.initial #v[⟨2⟩]).failed {} :=
    State.stuck_eq_failed rfl
  obtain ⟨hstep, -, -, -, -, hlater⟩ := failed_step_absorbs (Solver.standard.newton Binary64)
    flatEquation #v[⟨3⟩] (.initial #v[⟨2⟩]) hmask hres hsolves (by decide +kernel)
  rw [hstuck] at hstep hlater
  refine ⟨hstep, fun j => ⟨(hlater j).1, ?_⟩⟩
  refine (hlater j).2.trans ?_
  rw [terminate_eq ⟨rfl, rfl⟩]
  exact congrArg Except.ok (by decide +kernel)

end Newton

/-! ## Iterates of another format -/

namespace Session

/-- The session at the iterate `y'` with the state of `y`. -/
def moveTo (p : Problem) (solver : Solver) (y y' : NumericArray) : Except SessionError Session :=
  ((start y).init p solver).map (·.place y')

/-- The residual of the state is the one at the iterate, whatever the formats of both. -/
def holdsResidual (p : Problem) (s : Session) : Bool :=
  match s.state, p.residual s.y.mixed with
  | some st, .ok t => t.entries.map Mixed.toFloat == st.state.residual.toArray.map Mixed.toFloat
  | _, _ => false

/-- The last step of the session could not be used. -/
def stepFailed (s : Session) : Bool :=
  s.state.any (·.state.stepFailed)

/-- The norm of the first session is below that of the second one. -/
def normBelow (s s' : Session) : Bool :=
  match s.state, s'.state with
  | some st, some st' => Scalar.lt st.state.norm st'.state.norm
  | _, _ => false

/-- The session with its counter at `i`. -/
def countedTo (s : Session) (i : Int) : Session :=
  { s with state := s.state.map fun st => { st with state := { st.state with steps := i } } }

/-- The counter of the session shows `i`. -/
def shows (s : Session) (i : Int) : Bool :=
  s.state.any fun st => st.state.steps == i

/-- The question whether to stop is refused, since a tolerance is too large. -/
def refusesTolerance (solver : Solver) (s : Session) : Bool :=
  match s.terminate solver with
  | .error (.failure .toleranceTooLarge) => true
  | _ => false

/-- The iterates of the sessions are the same numbers. -/
def sameIterate (s s' : Session) : Bool :=
  s.y.floats.entries == s'.y.floats.entries

/-- Two unknowns that are their own residual, and a Jacobian that is zero. -/
def flatProblem : Problem :=
  .formulas
    { residualFormula := .array [.unknown 0, .unknown 1]
      jacobianFormula :=
        .array (List.replicate 2 (.array (List.replicate 2 (.constant (.whole 0)))))
      needsNumbers := false
      parameters := none }

/-- An unknown that is its own residual, and a Jacobian that is zero in binary32 only. -/
def faintProblem : Problem :=
  .formulas
    { residualFormula := .array [.unknown 0]
      jacobianFormula := .array [.array [.constant (.float 1e-60)]]
      needsNumbers := false
      parameters := none }

/-- The vector of `n` ones in a format. -/
def ones (format : NumberFormat) (n : Nat) : NumericArray :=
  ⟨format, .ofVector (Vector.replicate n (.float 1))⟩

/-- The result of a computation that has one with two properties. -/
theorem exists_ok_of_any {ε β : Type} {r : Except ε β} {P Q : β → Bool}
    (h : (r.toOption.any fun b => P b && Q b) = true) :
    ∃ b, r = .ok b ∧ P b = true ∧ Q b = true := by
  cases r with
  | error e => cases h
  | ok b => exact ⟨b, rfl, Bool.and_eq_true_iff.1 h⟩

/-- At an iterate of binary64 with a state of binary32 the norm rises with a failed step, since it
is computed anew. -/
theorem exists_risen_norm : ∃ s s' : Session,
    moveTo flatProblem .standard (ones .binary32 2) (ones .binary64 2) = .ok s ∧
    s.holdsResidual flatProblem = true ∧ s.step flatProblem .standard = .ok s' ∧
    s'.stepFailed = true ∧ s.normBelow s' = true := by
  obtain ⟨s, hs, hholds, hstep⟩ := exists_ok_of_any
    (r := moveTo flatProblem .standard (ones .binary32 2) (ones .binary64 2))
    (P := holdsResidual flatProblem)
    (Q := fun s => (s.step flatProblem .standard).toOption.any fun s' =>
      s'.stepFailed && s.normBelow s')
    (by decide +kernel)
  obtain ⟨s', hs', hfailed, hbelow⟩ := exists_ok_of_any hstep
  exact ⟨s, s', hs, hholds, hs', hfailed, hbelow⟩

/-- At an iterate of binary32 with a state of binary64 the Jacobian is rounded to zero, and the step
fails; it leaves an iterate of binary64, from which the next step moves on. -/
theorem exists_moved_on : ∃ s s₁ s₂ : Session,
    moveTo faintProblem .standard (ones .binary64 1) (ones .binary32 1) = .ok s ∧
    s.holdsResidual faintProblem = true ∧ s.step faintProblem .standard = .ok s₁ ∧
    s₁.stepFailed = true ∧ s₁.step faintProblem .standard = .ok s₂ ∧
    s₂.stepFailed = false ∧ s₁.sameIterate s₂ = false := by
  obtain ⟨s, hs, hholds, hstep⟩ := exists_ok_of_any
    (r := moveTo faintProblem .standard (ones .binary64 1) (ones .binary32 1))
    (P := holdsResidual faintProblem)
    (Q := fun s => (s.step faintProblem .standard).toOption.any fun s₁ => s₁.stepFailed &&
      (s₁.step faintProblem .standard).toOption.any fun s₂ =>
        !s₂.stepFailed && !s₁.sameIterate s₂)
    (by decide +kernel)
  obtain ⟨s₁, hs₁, hfailed, hstep⟩ := exists_ok_of_any hstep
  obtain ⟨s₂, hs₂, husable, hmoved⟩ := exists_ok_of_any hstep
  rw [Bool.not_eq_true'] at husable hmoved
  exact ⟨s, s₁, s₂, hs, hholds, hs₁, hfailed, hs₂, husable, hmoved⟩

/-- With an integer tolerance of more than 64 bits there is no answer to whether to stop after a
failed step. -/
theorem exists_unanswered : ∃ (solver : Solver) (s s' : Session),
    Solver.ofSettings { atol := .int 10000000000000000000 } = .ok solver ∧
    (start (ones .binary64 2)).init flatProblem solver = .ok s ∧
    s.step flatProblem solver = .ok s' ∧ s'.stepFailed = true ∧
    s'.refusesTolerance solver = true := by
  let solver : Solver := { Solver.standard with atol := .int 10000000000000000000 }
  obtain ⟨s, hs, -, hstep⟩ := exists_ok_of_any
    (r := (start (ones .binary64 2)).init flatProblem solver)
    (P := holdsResidual flatProblem)
    (Q := fun s => (s.step flatProblem solver).toOption.any fun s' =>
      s'.stepFailed && s'.refusesTolerance solver)
    (by decide +kernel)
  obtain ⟨s', hs', hfailed, hrefuses⟩ := exists_ok_of_any hstep
  exact ⟨solver, s, s', rfl, hs, hs', hfailed, hrefuses⟩

/-- Where integers have 32 bits the counter goes on from the greatest of them at the least one. -/
theorem exists_wrapped : ∃ (solver : Solver) (s s₁ s₂ : Session),
    Solver.ofSettings { machine := { wide := false } } = .ok solver ∧
    (start (ones .binary32 2)).init flatProblem solver = .ok s ∧
    (s.countedTo 2147483646).step flatProblem solver = .ok s₁ ∧ s₁.stepFailed = true ∧
    s₁.shows 2147483647 = true ∧ s₁.step flatProblem solver = .ok s₂ ∧
    s₂.shows (-2147483648) = true := by
  let solver : Solver := { Solver.standard with machine := { wide := false } }
  obtain ⟨s, hs, -, hstep⟩ := exists_ok_of_any
    (r := (start (ones .binary32 2)).init flatProblem solver)
    (P := holdsResidual flatProblem)
    (Q := fun s => ((s.countedTo 2147483646).step flatProblem solver).toOption.any fun s₁ =>
      (s₁.stepFailed && s₁.shows 2147483647) &&
        (s₁.step flatProblem solver).toOption.any fun s₂ =>
          s₂.stepFailed && s₂.shows (-2147483648))
    (by decide +kernel)
  obtain ⟨s₁, hs₁, hfirst, hstep⟩ := exists_ok_of_any hstep
  obtain ⟨hfailed, hshown⟩ := Bool.and_eq_true_iff.1 hfirst
  obtain ⟨s₂, hs₂, -, hwrapped⟩ := exists_ok_of_any hstep
  exact ⟨solver, s, s₁, s₂, rfl, hs, hs₁, hfailed, hshown, hs₂, hwrapped⟩

/-- Not all of a session stays after a failed step, nor does its answer, though the state holds the
residual at the iterate. Where the formats of iterate and state differ the norm can rise, and
a later step can even move on; with a tolerance that does not fit there is no answer; and the
counter goes from the greatest integer to the least. -/
theorem absorption_fails :
    (∃ s s' : Session,
      moveTo flatProblem .standard (ones .binary32 2) (ones .binary64 2) = .ok s ∧
      s.holdsResidual flatProblem = true ∧ s.step flatProblem .standard = .ok s' ∧
      s'.stepFailed = true ∧ s.normBelow s' = true) ∧
    (∃ s s₁ s₂ : Session,
      moveTo faintProblem .standard (ones .binary64 1) (ones .binary32 1) = .ok s ∧
      s.holdsResidual faintProblem = true ∧ s.step faintProblem .standard = .ok s₁ ∧
      s₁.stepFailed = true ∧ s₁.step faintProblem .standard = .ok s₂ ∧
      s₂.stepFailed = false ∧ s₁.sameIterate s₂ = false) ∧
    (∃ (solver : Solver) (s s' : Session),
      Solver.ofSettings { atol := .int 10000000000000000000 } = .ok solver ∧
      (start (ones .binary64 2)).init flatProblem solver = .ok s ∧
      s.step flatProblem solver = .ok s' ∧ s'.stepFailed = true ∧
      s'.refusesTolerance solver = true) ∧
    ∃ (solver : Solver) (s s₁ s₂ : Session),
      Solver.ofSettings { machine := { wide := false } } = .ok solver ∧
      (start (ones .binary32 2)).init flatProblem solver = .ok s ∧
      (s.countedTo 2147483646).step flatProblem solver = .ok s₁ ∧ s₁.stepFailed = true ∧
      s₁.shows 2147483647 = true ∧ s₁.step flatProblem solver = .ok s₂ ∧
      s₂.shows (-2147483648) = true :=
  ⟨exists_risen_norm, exists_moved_on, exists_unanswered, exists_wrapped⟩

end Session

end Stationary
