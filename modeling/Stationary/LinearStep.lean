import Stationary.Elimination
import Stationary.Svd

/-!
# Dense linear steps

A linear step for `A δ = b` never fails outright : it returns `δ` with a flag that says
whether it can be used. By elimination (`LinearStep.lu`) the step is usable if no pivot
is negligible beside the largest one and all factors and all components are finite; by
least squares (`LinearStep.leastSquares`) it is usable if all components are finite.
-/

namespace Stationary

/-- The ways to solve for a step. -/
inductive LinearMethod
  | lu
  | leastSquares
  deriving DecidableEq

namespace LinearMethod

/-- The name under which a method is asked for. -/
def name : LinearMethod → String
  | lu => "lu"
  | leastSquares => "lstsq"

/-- The method of a name. -/
def ofName? (s : String) : Option LinearMethod :=
  if s = lu.name then some lu else if s = leastSquares.name then some leastSquares else none

end LinearMethod

/-- A step and whether it can be used; an unusable `delta` means nothing. -/
structure LinearStep (α : Type) (n : Nat) where
  delta : Vector α n
  usable : Bool

namespace LinearStep

variable {α : Type} {n : Nat} [Scalar α]

/-- The pivot threshold that is used when none is asked for. -/
def standardPivotRtol (n : Nat) : α :=
  Scalar.ofNat n * Scalar.eps

/-- The step by elimination with partial pivoting. -/
def lu (A : SquareMatrix α n) (b : Vector α n) (rtol : α) : LinearStep α n :=
  let f := factor A
  let x := f.solve b
  { delta := x
    usable := !f.isSingular rtol && f.allFinite && Vec.allFinite x }

/-- The step by elimination whose solution is in a wider format than its factors. -/
def luWidened {β : Type} [Scalar β] (widen : α → β) (A : SquareMatrix α n) (b : Vector β n)
    (rtol : α) : LinearStep β n :=
  let f := factor A
  let x := (f.map widen).solve b
  { delta := x
    usable := !f.isSingular rtol && f.allFinite && Vec.allFinite x }

/-- The minimum-norm least-squares step. -/
def leastSquares [Decomposes α] (A : SquareMatrix α n) (b : Vector α n) : LinearStep α n :=
  let x := (Decomposes.svd A).solve b
  { delta := x
    usable := Vec.allFinite x }

end LinearStep

end Stationary
