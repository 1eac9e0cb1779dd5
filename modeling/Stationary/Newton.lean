import Stationary.Journal
import Stationary.LinearStep

/-!
# The Newton iteration

`Newton` holds what a run is configured with. Three functions make up the iteration :
`Newton.init` evaluates the residual at the start and checks all shapes, `Newton.step`
takes one step, and `Newton.status` reads three flags off a state, which needs tolerances
that can be compared with (`Newton.readFlags`).

A step solves `J(y) δ = -f` with the residual `f` that the state stores, adds `δ`,
clamps the marked components and evaluates the residual at the new iterate. If `δ`
cannot be used the iterate stays as it is, and the state says so. The iteration has
converged where the norm of the residual is strictly below `atol + rtol · ‖F(y₀)‖`.

The steps are counted by an integer of the machine, which wraps around.
-/

namespace Stationary

/-- The pivot threshold of elimination. -/
inductive PivotThreshold (α : Type)
  /-- The number of unknowns times the unit roundoff. -/
  | standard
  | relative (r : α)
  /-- A setting that is no threshold, which is noticed when one is needed. -/
  | unusable

/-- The configuration of an iteration. -/
structure Newton (α : Type) where
  rtol : α
  atol : α
  maxSteps : Nat
  projection : Setting
  linearMethod : LinearMethod
  pivotRtol : PivotThreshold α
  /-- The tolerances can be computed with, which is noticed when the flags are read. -/
  checkTolerances : Except Failure Unit := .ok ()
  /-- One of the tolerances is an array with axes, and so is the threshold. -/
  thresholdHasAxes : Bool := false
  machine : Machine := {}

/-- What is known between two steps. -/
structure State (α : Type) (n : Nat) where
  /-- The counter of the steps taken. -/
  steps : Int
  /-- The residual at the iterate. -/
  residual : Vector α n
  /-- Its norm. -/
  norm : α
  /-- The norm of the residual at the start. -/
  initialNorm : α
  /-- The last linear step could not be used. -/
  stepFailed : Bool

/-- The same state in another format. -/
def State.map {α β : Type} {n : Nat} (f : α → β) (s : State α n) : State β n where
  steps := s.steps
  residual := s.residual.map f
  norm := f s.norm
  initialNorm := f s.initialNorm
  stepFailed := s.stepFailed

/-- The flags of a state. -/
structure Flags where
  converged : Bool
  singular : Bool
  nonFinite : Bool
  deriving DecidableEq

/-- The outcome that the flags announce, in order of precedence. -/
def Flags.outcome? (f : Flags) : Option Outcome :=
  if f.converged then some .success
  else if f.singular then some .singularJacobian
  else if f.nonFinite then some .nonFinite
  else none

/-- The flags of a state, which has converged if its norm is strictly below a threshold. -/
def State.flags {α : Type} [Scalar α] {n : Nat} (s : State α n) (threshold : α) : Flags where
  converged := Scalar.lt s.norm threshold
  singular := s.stepFailed
  nonFinite := !Vec.allFinite s.residual

section Evaluation

variable {α : Type} {n : Nat}

open Journaled

/-- The residual at `y`, which must have the shape of `y`. -/
def System.residualAt (system : System α n) (y : Vector α n) :
    Journaled α n (Vector α n) := do
  record (.residual y)
  let t ← ofExcept .fault (system.residual y)
  match t.toVector? n with
  | some f => pure f
  | none => throw (.residualShape t.shape n)

/-- The Jacobian at `y`, which must be square. -/
def System.jacobianAt (system : System α n) (y : Vector α n) :
    Journaled α n (SquareMatrix α n) := do
  record (.jacobian y)
  let t ← ofExcept .fault (system.jacobian y)
  match t.toMatrix? n with
  | some A => pure A
  | none => throw (.jacobianShape t.shape n)

/-- The shape of the Jacobian checked in advance, where it is known. -/
def System.checkJacobianShape (system : System α n) : Journaled α n Unit :=
  match system.jacobianShape with
  | .ok s => if s = [n, n] then pure () else throw (.jacobianShape s n)
  | .error f => if f.needsValues then record (.note .unchecked) else throw (.fault f)

end Evaluation

namespace Newton

variable {α : Type} {n : Nat} [Scalar α]

open Journaled

/-- The norm below which the iteration has converged, for a norm at the start. -/
def threshold (newton : Newton α) (initialNorm : α) : α :=
  newton.atol + newton.rtol * initialNorm

/-- The flags of a state. -/
def status (newton : Newton α) (s : State α n) : Flags :=
  s.flags (newton.threshold s.initialNorm)

/-- The flags of a state, if the tolerances can be compared with. -/
def readFlags (newton : Newton α) (s : State α n) : Except Failure Flags :=
  newton.checkTolerances.map fun _ => newton.status s

/-- The state at the start `y`. -/
def init (newton : Newton α) (system : System α n) (y : Vector α n) :
    Journaled α n (State α n) := do
  if n = 0 then throw (.stateShape [0])
  let f ← system.residualAt y
  system.checkJacobianShape
  let _ ← ofExcept .policy (maskFor newton.machine newton.projection n)
  pure
    { steps := 0
      residual := f
      norm := Vec.norm f
      initialNorm := Vec.norm f
      stepFailed := false }

/-- The linear step for `A δ = b`. -/
def linearStep [Decomposes α] (newton : Newton α) (A : SquareMatrix α n) (b : Vector α n) :
    Except Failure (LinearStep α n) :=
  match newton.linearMethod, newton.pivotRtol with
  | .leastSquares, _ => .ok (.leastSquares A b)
  | .lu, .standard => .ok (.lu A b (LinearStep.standardPivotRtol n))
  | .lu, .relative r => .ok (.lu A b r)
  | .lu, .unusable => .error .pivotThreshold

/-- A linear step needs a pivot threshold that can be used. -/
def checkPivots (newton : Newton α) : Except Failure Unit :=
  match newton.linearMethod, newton.pivotRtol with
  | .lu, .unusable => .error .pivotThreshold
  | _, _ => .ok ()

/-- The iterate after a linear step from `y`. -/
def advance (mask : Vector Bool n) (y : Vector α n) (d : LinearStep α n) : Vector α n :=
  if d.usable then clamp mask (Vec.add y d.delta) else y

/-- The iterate and the state after a linear step from `y` in state `s`. -/
def follow (machine : Machine) (system : System α n) (mask : Vector Bool n) (y : Vector α n)
    (s : State α n) (d : LinearStep α n) : Journaled α n (Vector α n × State α n) := do
  let next := advance mask y d
  let f ← system.residualAt next
  pure (next,
    { steps := machine.next s.steps
      residual := f
      norm := Vec.norm f
      initialNorm := s.initialNorm
      stepFailed := !d.usable })

/-- One step from `y` in state `s`. -/
def step [Decomposes α] (newton : Newton α) (system : System α n) (y : Vector α n)
    (s : State α n) : Journaled α n (Vector α n × State α n) := do
  let mask ← ofExcept .policy (maskFor newton.machine newton.projection n)
  let A ← system.jacobianAt y
  let d ← ofExcept id (newton.linearStep A (Vec.neg s.residual))
  follow newton.machine system mask y s d

end Newton

end Stationary
