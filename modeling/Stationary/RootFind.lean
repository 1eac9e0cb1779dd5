import Stationary.Newton

/-!
# The iteration under a budget of the caller

`Newton.terminate` folds the flags of a state into one decision and a verdict, in which
`successful` also stands for an iteration that is still going on. `rootFind` is a
driver that knows nothing but this decision : it asks before every step, stops when the
decision is made or its own budget is used up, asks once more at the end, and calls an
iteration that is successful but not decided one that reached its budget. It needs the
shapes of residual and Jacobian in advance, and looks in advance too whether a decision can
be made and whether the pivot threshold can be used.
-/

namespace Stationary

/-- How an iteration is judged. -/
inductive Verdict
  | successful
  | singular
  | nonlinearDivergence
  | maxStepsReached
  deriving DecidableEq

/-- The name of a verdict. -/
def Verdict.name : Verdict → String
  | successful => "successful"
  | singular => "singular"
  | nonlinearDivergence => "nonlinear_divergence"
  | maxStepsReached => "nonlinear_max_steps_reached"

/-- Whether the flags say to stop, and the verdict. -/
def Flags.decision (f : Flags) : Bool × Verdict :=
  (f.converged || f.singular || f.nonFinite,
    if f.converged then .successful
    else if f.singular then .singular
    else if f.nonFinite then .nonlinearDivergence
    else .successful)

/-- The result of `rootFind`. -/
structure Root (α : Type) (n : Nat) where
  value : Vector α n
  verdict : Verdict
  steps : Int
  residualNorm : α

namespace Newton

variable {α : Type} {n : Nat} [Scalar α]

open Journaled

/-- Whether to stop, and the verdict. The flags must be single ones, without axes. -/
def terminate (newton : Newton α) (s : State α n) : Except Failure (Bool × Verdict) :=
  (newton.readFlags s).bind fun flags =>
    if newton.thresholdHasAxes then .error .thresholdWithAxes else .ok flags.decision

/-- The verdict on the last state. -/
def lastVerdict (newton : Newton α) (s : State α n) : Except Failure Verdict :=
  (newton.terminate s).map fun
    | (false, .successful) => .maxStepsReached
    | (_, verdict) => verdict

variable [Decomposes α]

/-- Steps until the decision is made, at most `budget` of them. -/
def stepWhile (newton : Newton α) (system : System α n) :
    Nat → Vector α n → State α n → Journaled α n (Vector α n × State α n)
  | 0, y, s => pure (y, s)
  | budget + 1, y, s => do
    let (done, _) ← ofExcept id (newton.terminate s)
    if done then pure (y, s)
    else do
      let (y, s) ← newton.step system y s
      stepWhile newton system budget y s

/-- The policy checked before numbers are known, where the shape of the Jacobian is right or
not known. -/
def checkPolicy (newton : Newton α) (system : System α n) : Journaled α n Unit :=
  match system.jacobianShape with
  | .ok s =>
    if s = [n, n] then ofExcept .policy (checkKnownPolicy newton.machine newton.projection n)
    else pure ()
  | .error f =>
    if f.needsValues then
      ofExcept .policy (checkKnownPolicy newton.machine newton.projection n)
    else pure ()

/-- The iteration from `y` under a budget of the caller. -/
def rootFind (newton : Newton α) (system : System α n) (budget : Nat) (y : Vector α n) :
    Journaled α n (Root α n) := do
  let residualShape ← ofExcept .fault system.residualShape
  if residualShape = [n] ∧ n ≠ 0 then newton.checkPolicy system
  let s ← newton.init system y
  let _ ← ofExcept id (newton.terminate s)
  let _ ← ofExcept .fault system.jacobianShape
  ofExcept id newton.checkPivots
  let (y, s) ← newton.stepWhile system budget y s
  let verdict ← ofExcept id (newton.lastVerdict s)
  pure
    { value := y
      verdict := verdict
      steps := s.steps
      residualNorm := s.norm }

end Newton

end Stationary
