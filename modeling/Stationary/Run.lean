import Stationary.Newton

/-!
# Runs

A run checks the flags before every step and stops at the first outcome they announce,
or when the counter of steps has reached the budget; so the last iterate is always checked,
and a run with budget zero only looks at its start. A counter that cannot reach the budget
lets a run go on for ever. So `State.loop` is a partial function, and `Newton.repeatUntil`
fails where it has no value, with a cause that no computation reports. `solve` turns a
solution into an answer : a flag and the iterate, or an error that carries the solution if
the run had to stop.
-/

namespace Stationary

/-- The result of a run. -/
structure Solution (α : Type) (n : Nat) where
  value : Vector α n
  outcome : Outcome
  steps : Int
  residualNorm : α

/-- The run converged. -/
def Solution.converged {α : Type} {n : Nat} (s : Solution α n) : Bool :=
  s.outcome = .success

namespace Newton

variable {α : Type} {n : Nat} [Scalar α]

open Journaled

/-- What is noted at the end of a run. -/
def closingNote (s : State α n) : Outcome → Note α
  | .success => .converged s.steps s.norm
  | .maxIterations => .exhausted s.steps s.norm
  | outcome => .stopped s.steps outcome

/-- The end of a run. -/
def finish (outcome : Outcome) (y : Vector α n) (s : State α n) :
    Journaled α n (Solution α n) := do
  record (.note (closingNote s outcome))
  pure { value := y, outcome := outcome, steps := s.steps, residualNorm := s.norm }

end Newton

/-- The loop that stops in a state where `stop?` has an outcome, and takes a step elsewhere,
with the journal so far. It has no value where it never ends. -/
def State.loop {α : Type} {n : Nat} (stop? : State α n → Option Outcome)
    (step : Vector α n → State α n → Journaled α n (Vector α n × State α n))
    (y : Vector α n) (s : State α n) (journal : Journal α n) :
    Option (Except Failure (Solution α n) × Journal α n) :=
  let journal := journal.push (.note (.reached s.steps s.norm))
  match stop? s with
  | some outcome => some ((Newton.finish outcome y s).run.run journal)
  | none =>
    match (step y s).run.run journal with
    | (.error cause, journal) => some (.error cause, journal)
    | (.ok (y, s), journal) => s |>.loop stop? step y journal
partial_fixpoint

namespace Newton

variable {α : Type} {n : Nat} [Scalar α]

open Journaled

/-- The loop as a computation, which fails where it never ends. -/
def repeatUntil (stop? : State α n → Option Outcome)
    (step : Vector α n → State α n → Journaled α n (Vector α n × State α n))
    (y : Vector α n) (s : State α n) : Journaled α n (Solution α n) :=
  .mk fun journal => (s.loop stop? step y journal).getD (.error .endless, journal)

/-- The outcome with which a run stops in a state : what the flags announce, or that the
counter has reached the budget. -/
def stop? (newton : Newton α) (s : State α n) : Option Outcome :=
  match (newton.status s).outcome? with
  | some outcome => some outcome
  | none => if newton.maxSteps ≤ s.steps then some .maxIterations else none

variable [Decomposes α]

/-- The iteration from an iterate and its state. -/
def iterate (newton : Newton α) (system : System α n) (y : Vector α n) (s : State α n) :
    Journaled α n (Solution α n) :=
  repeatUntil newton.stop? (newton.step system) y s

/-- The run from `y`. -/
def run (newton : Newton α) (system : System α n) (y : Vector α n) :
    Journaled α n (Solution α n) := do
  let s ← newton.init system y
  ofExcept id newton.checkTolerances
  newton.iterate system y s

end Newton

/-- A run that had to stop, with its solution. -/
inductive Breakdown (α : Type) (n : Nat)
  | singularJacobian (solution : Solution α n)
  | nonFiniteResidual (solution : Solution α n)

/-- The solution at the point of failure. -/
def Breakdown.solution {α : Type} {n : Nat} : Breakdown α n → Solution α n
  | singularJacobian s => s
  | nonFiniteResidual s => s

/-- The text of the error. -/
def Breakdown.message {α : Type} [FloatFormat α] {n : Nat} : Breakdown α n → String
  | singularJacobian s =>
    "Singular Jacobian after " ++ toString s.steps ++ " steps (||F|| = " ++
      Decimal.scientific 3 (FloatFormat.toFloat s.residualNorm) ++ ")"
  | nonFiniteResidual s => "Non-finite residual after " ++ toString s.steps ++ " steps"

/-- The flag and the iterate of a solution, unless the run had to stop. -/
def Solution.answer {α : Type} {n : Nat} (s : Solution α n) :
    Except (Breakdown α n) (Bool × Vector α n) :=
  match s.outcome with
  | .singularJacobian => .error (.singularJacobian s)
  | .nonFinite => .error (.nonFiniteResidual s)
  | _ => .ok (s.converged, s.value)

/-- The answer of a run. -/
def solve {α : Type} {n : Nat} [Scalar α] [Decomposes α] (newton : Newton α)
    (system : System α n) (y : Vector α n) :
    Journaled α n (Except (Breakdown α n) (Bool × Vector α n)) :=
  Solution.answer <$> newton.run system y

end Stationary
