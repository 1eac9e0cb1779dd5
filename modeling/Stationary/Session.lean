import Stationary.Operands
import Stationary.Problem
import Stationary.RootFind
import Stationary.Widened

/-!
# Stepping by hand

A session is an iterate and a state that a caller moves on one call at a time. Nothing
stops the caller : the iterate may be replaced without touching the state, by one of
another length or of another format; a step may be asked for after convergence or failure,
and a call may come before there is a state. A call that fails leaves the session as it
is, so every call is a function to an error or to the next session.

The numbers of the state have their kinds with them : the residual that of the iterate, the
norm that of its computation, and so the threshold is one of these kinds as well. A step is
taken in the wider one of the formats of the iterate and of the residual. An iterate of
integers has a state, whose residual is one of integers too, but no step.
-/

namespace Stationary

/-- A part of a state that a call asks for. -/
inductive StatePart
  | residual
  | initialNorm
  | steps
  deriving DecidableEq

/-- The name of a part of a state. -/
def StatePart.name : StatePart → String
  | residual => "f_val"
  | initialNorm => "f_norm_init"
  | steps => "step_count"

/-- Why a call fails. -/
inductive SessionError
  | failure (cause : Failure)
  /-- There is no state yet. -/
  | notStarted (part : StatePart)
  /-- The iterate is a single number, which has no length. -/
  | withoutLength

/-- The text of the error, where it has one. -/
def SessionError.message? : SessionError → Option String
  | failure cause => cause.message?
  | notStarted part => some ("'NoneType' object has no attribute '" ++ part.name ++ "'")
  | withoutLength => some "tuple index out of range"

/-- A state with its number of unknowns and the format of its residual. -/
structure KeptState where
  size : Nat
  format : NumberFormat
  state : State Mixed size

/-- An iterate, and a state if there is one. -/
structure Session where
  y : NumericArray
  state : Option KeptState

namespace Session

/-- A session at its start. -/
def start (y : NumericArray) : Session :=
  { y := y, state := none }

/-- The session with another iterate. -/
def place (s : Session) (y : NumericArray) : Session :=
  { s with y := y }

/-- The state, of which a part is asked for. -/
def stateFor (s : Session) (part : StatePart) : Except SessionError KeptState :=
  match s.state with
  | some state => .ok state
  | none => .error (.notStarted part)

/-- The result of a computation whose journal is not kept. -/
def ofJournaled {α β : Type} {n : Nat} (m : Journaled α n β) : Except SessionError β :=
  match m.value with
  | .ok b => .ok b
  | .error cause => .error (.failure cause)

section Looking

/-- The flags of the state. -/
def status (solver : Solver) (s : Session) : Except SessionError Flags := do
  let st ← s.stateFor .initialNorm
  ((solver.newton Mixed).readFlags st.state).mapError .failure

/-- Whether to stop, and the verdict. -/
def terminate (solver : Solver) (s : Session) : Except SessionError (Bool × Verdict) := do
  let st ← s.stateFor .initialNorm
  ((solver.newton Mixed).terminate st.state).mapError .failure

/-- The counter of the steps and the norm of the residual. -/
def statistics (s : Session) : Except SessionError (Int × Float) := do
  let st ← s.stateFor .steps
  .ok (st.state.steps, st.state.norm.toFloat)

end Looking

section Starting

/-- The system of a problem in unknowns of a kind, whose residual is brought to the same
kind. -/
def systemOfKind (p : Problem) (k : NumberKind) (n : Nat) : System Mixed n :=
  let system := p.system k n
  { system with residual := fun y => (system.residual y).map (·.map (Kinded.inKind k)) }

/-- The state of an iterate. -/
def initialState (p : Problem) (solver : Solver) (y : NumericArray) :
    Except SessionError KeptState :=
  match y.shape with
  | [n] =>
    match y.mixed.toVector? n with
    | some v => do
      let st ← ofJournaled ((solver.newton Mixed).init (systemOfKind p y.format.kind n) v)
      .ok { size := n, format := y.format, state := st }
    | none => .error (.failure (.stateShape y.shape))
  | shape => .error (.failure (.stateShape shape))

/-- The session with the state of its iterate. -/
def init (p : Problem) (solver : Solver) (s : Session) : Except SessionError Session := do
  let state ← initialState p solver s.y
  .ok { s with state := some state }

end Starting

section Moving

/-- What a step checks before it looks at the state : the policy and the Jacobian. -/
def checkStep (p : Problem) (solver : Solver) (y : NumericArray) : Except SessionError Unit :=
  match y.shape with
  | [] => .error .withoutLength
  | n :: _ =>
    match projectionMask solver.machine solver.projection n with
    | .error e => .error (.failure (.policy e))
    | .ok _ =>
      match p.jacobian y.mixed with
      | .error fault => .error (.failure (.fault fault))
      | .ok A =>
        if A.shape = [n, n] then .ok () else .error (.failure (.jacobianShape A.shape n))

/-- Why an iterate cannot be moved by a step of a state of another shape. -/
def stepMismatch (y : Shape) (n : Nat) : Failure :=
  if y.head? = some n ∧ Shape.combine? y [n] = none then .fault .noCommonShape
  else .mismatchedState

/-- The session after a step to `y` and `next` in a format. The norm at the start stays. -/
def moved {α : Type} [FloatFormat α] [Exchange α] (format : NumberFormat) (st : KeptState)
    (y : Vector α st.size) (next : State α st.size) : Session where
  y := .ofTensor format (.ofVector y)
  state := some
    { st with
      format := format
      state := { next.map Exchange.toMixed with initialNorm := st.state.initialNorm } }

/-- A step in one format, which the numbers of the state belong to as well. -/
def stepIn (α : Type) [Elementary α] [Inhabited α] [FloatFormat α] [OfKind α] [Decomposes α]
    (format : NumberFormat) (p : Problem) (solver : Solver) (y : NumericArray) (st : KeptState) :
    Except SessionError Session :=
  match (y.inFormat α).toVector? st.size with
  | some v => do
    let (y, next) ← ofJournaled ((solver.newton α).step (p.system (OfKind.kind α) st.size) v
      (st.state.map Exchange.ofMixed))
    .ok (moved format st y next)
  | none => .error (.failure (stepMismatch y.shape st.size))

/-- A step from an iterate in binary32 with a state in binary64. -/
def stepAcross (p : Problem) (solver : Solver) (y : NumericArray) (st : KeptState) :
    Except SessionError Session :=
  match (y.inFormat Binary32).toVector? st.size with
  | some v => do
    let (y, next) ← ofJournaled ((solver.newton Binary32).stepWidened widen
      (p.system .binary32 st.size) (p.system .binary64 st.size) v
      (st.state.map Exchange.ofMixed))
    .ok (moved .binary64 st y next)
  | none => .error (.failure (stepMismatch y.shape st.size))

/-- The session after a step. A residual of truth values cannot be negated, and other
numbers than those of the binary formats make no linear system. -/
def step (p : Problem) (solver : Solver) (s : Session) : Except SessionError Session := do
  checkStep p solver s.y
  let st ← s.stateFor .residual
  match s.y.format, st.format with
  | _, .truth => .error (.failure (.fault (.refused .undefinedForKind)))
  | .binary32, .binary32 => stepIn Binary32 .binary32 p solver s.y st
  | .binary32, .binary64 => stepAcross p solver s.y st
  | .binary64, .binary32 => stepIn Binary64 .binary64 p solver s.y st
  | .binary64, .binary64 => stepIn Binary64 .binary64 p solver s.y st
  | _, _ => .error (.failure .mismatchedState)

end Moving

end Session

end Stationary
