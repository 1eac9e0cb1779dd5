import Stationary.Newton

/-!
# Steps across two formats

An iterate may be in a narrower format than the residual of its state. A step then
evaluates the Jacobian and factors it in the format of the iterate, and solves in that of
the residual, in which the next iterate is.
-/

namespace Stationary.Newton

variable {α β : Type} {n : Nat} [Scalar α] [Scalar β]

open Journaled

/-- The linear step for `A δ = b` with a matrix in a narrower format. -/
def linearStepWidened [Decomposes β] (widen : α → β) (newton : Newton α) (A : SquareMatrix α n)
    (b : Vector β n) : Except Failure (LinearStep β n) :=
  match newton.linearMethod, newton.pivotRtol with
  | .leastSquares, _ => .ok (.leastSquares (A.map fun row => row.map widen) b)
  | .lu, .standard => .ok (.luWidened widen A b (LinearStep.standardPivotRtol n))
  | .lu, .relative r => .ok (.luWidened widen A b r)
  | .lu, .unusable => .error .pivotThreshold

/-- One step from `y` in a state of a wider format. -/
def stepWidened [Decomposes β] (widen : α → β) (newton : Newton α) (narrow : System α n)
    (wide : System β n) (y : Vector α n) (s : State β n) :
    Journaled β n (Vector β n × State β n) := do
  let mask ← ofExcept .policy (maskFor newton.machine newton.projection n)
  record (.jacobian (y.map widen))
  let t ← ofExcept .fault (narrow.jacobian y)
  match t.toMatrix? n with
  | some A => do
    let d ← ofExcept id (newton.linearStepWidened widen A (Vec.neg s.residual))
    follow newton.machine wide mask (y.map widen) s d
  | none => throw (.jacobianShape t.shape n)

end Stationary.Newton
