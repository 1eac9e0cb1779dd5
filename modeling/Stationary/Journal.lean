import Stationary.System
import Stationary.Projection

/-!
# Journals

A run leaves a journal : every evaluation of the residual and of the Jacobian, with the
point it was made at, and every note for a reader, in the order in which they happened.
The journal is kept when the run fails. `Journaled` is the type of such computations.
-/

namespace Stationary

/-- How a run ends. -/
inductive Outcome
  | success
  | maxIterations
  | singularJacobian
  | nonFinite
  deriving DecidableEq

namespace Outcome

/-- The number of an outcome. -/
def code : Outcome → Int
  | success => 0
  | maxIterations => 1
  | singularJacobian => 2
  | nonFinite => 3

/-- The name of an outcome. -/
def name : Outcome → String
  | success => "success"
  | maxIterations => "max_iterations"
  | singularJacobian => "singular_jacobian"
  | nonFinite => "non_finite"

/-- All outcomes. -/
def all : List Outcome :=
  [success, maxIterations, singularJacobian, nonFinite]

/-- The outcome of a number. -/
def ofCode? (code : Int) : Option Outcome :=
  all.find? fun o => o.code = code

/-- The outcome whose number a setting equals, be it an integer, a float or a truth value. -/
def ofSetting? : Setting → Option Outcome
  | .truth b => ofCode? (if b then 1 else 0)
  | .int i => ofCode? i
  | .float x => all.find? fun o => x == Float.ofInt o.code
  | _ => none

end Outcome

/-- What a run says while it goes on. -/
inductive Note (α : Type)
  /-- The shape of the Jacobian could not be checked in advance. -/
  | unchecked
  /-- The norm of the residual before a step. -/
  | reached (steps : Int) (norm : α)
  /-- The end of a run that converged. -/
  | converged (steps : Int) (norm : α)
  /-- The end of a run that used up its budget. -/
  | exhausted (steps : Int) (norm : α)
  /-- The end of a run that had to stop. -/
  | stopped (steps : Int) (outcome : Outcome)

/-- An entry of a journal. -/
inductive Event (α : Type) (n : Nat)
  | residual (y : Vector α n)
  | jacobian (y : Vector α n)
  | note (text : Note α)

/-- The events of a run, in order. -/
abbrev Journal (α : Type) (n : Nat) := Array (Event α n)

/-- Why a run has no solution. -/
inductive Failure
  | stateShape (shape : Shape)
  | residualShape (shape : Shape) (n : Nat)
  | jacobianShape (shape : Shape) (n : Nat)
  | policy (error : PolicyError)
  /-- The pivot threshold is neither a float nor left out. -/
  | pivotThreshold
  /-- The stored residual and the iterate are not of one linear system, by their lengths or
  by their formats. -/
  | mismatchedState
  /-- A tolerance is an integer beyond the format of integers. -/
  | toleranceTooLarge
  /-- A tolerance is an array of values of any kind, which is not computed with. -/
  | toleranceNotNumeric
  /-- The threshold has axes, where a decision is asked for. -/
  | thresholdWithAxes
  /-- The run goes on for ever. No run reports this : it stands for having no end. -/
  | endless
  | fault (fault : Fault)

namespace Failure

/-- The text of a failure, where it has one. -/
def message? : Failure → Option String
  | stateShape shape =>
    some ("The state must be a non-empty 1-D array, got shape " ++ shape.text)
  | residualShape shape n =>
    some ("Residual has shape " ++ shape.text ++ " but the state has shape " ++
      Shape.text [n] ++ "; the system must be square")
  | jacobianShape shape n =>
    some ("Jacobian has shape " ++ shape.text ++ ", expected " ++ Shape.text [n, n])
  | policy error => error.message?
  | pivotThreshold => none
  | mismatchedState => none
  | toleranceTooLarge => none
  | toleranceNotNumeric => none
  | thresholdWithAxes => none
  | endless => none
  | fault f => f.message?

end Failure

/-- A computation that keeps a journal and may fail. -/
abbrev Journaled (α : Type) (n : Nat) (β : Type) := ExceptT Failure (StateM (Journal α n)) β

namespace Journaled

variable {α β : Type} {n : Nat}

/-- An event goes on record. -/
def record (e : Event α n) : Journaled α n Unit :=
  modify (·.push e)

/-- The result, with a journal that starts empty. -/
def start (m : Journaled α n β) : Except Failure β × Journal α n :=
  m.run.run #[]

/-- The result alone. -/
def value (m : Journaled α n β) : Except Failure β :=
  (start m).1

/-- A result, or its cause of failure. -/
def ofExcept {ε : Type} (cause : ε → Failure) : Except ε β → Journaled α n β
  | .ok b => pure b
  | .error e => throw (cause e)

end Journaled

namespace Journal

variable {α : Type} {n : Nat}

/-- The number of evaluations of the residual. -/
def residualCount (j : Journal α n) : Nat :=
  j.countP fun | .residual _ => true | _ => false

/-- The number of evaluations of the Jacobian. -/
def jacobianCount (j : Journal α n) : Nat :=
  j.countP fun | .jacobian _ => true | _ => false

@[simp] theorem residualCount_append (j j' : Journal α n) :
    residualCount (j ++ j') = j.residualCount + j'.residualCount :=
  Array.countP_append

@[simp] theorem jacobianCount_append (j j' : Journal α n) :
    jacobianCount (j ++ j') = j.jacobianCount + j'.jacobianCount :=
  Array.countP_append

/-- The notes of a journal. -/
def notes (j : Journal α n) : List (Note α) :=
  j.toList.filterMap fun | .note t => some t | _ => none

end Journal

end Stationary
