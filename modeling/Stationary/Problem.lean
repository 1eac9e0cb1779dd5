import Stationary.JacobianError
import Stationary.Kkt.Data

/-!
# Problems

A problem is what a caller wants solved : two formulas, or the reference problem. It has
a residual and a Jacobian at a tensor of any shape, in any arithmetic whose numbers can be
taken for numbers with a kind, and shapes of both that are known in advance for unknowns of
a kind. `Problem.system` is the system of `n` unknowns that an iteration works on, and
`Problem.jacobianError` compares the Jacobian with the derivative of the residual.

Formulas compute in the kinds of their numbers, and only their value is brought to the
arithmetic of the unknowns. The reference problem computes in that arithmetic all along.
-/

namespace Stationary

/-- A residual and a Jacobian, as a caller gives them. -/
inductive Problem
  | formulas (f : FormulaSystem)
  /-- The reference problem; its Jacobian may need the unknowns as numbers. -/
  | reference (data : KktData) (needsNumbers : Bool)

namespace Problem

section Values

variable {α : Type} [Elementary α] [Inhabited α] [Exchange α]

/-- The residual at a tensor. -/
def residual (y : Tensor α) : Problem → Except Fault (Tensor α)
  | formulas f => (f.residual id (y.map Exchange.toMixed)).map (·.map Exchange.ofMixed)
  | reference data _ => data.residual y

/-- The Jacobian at a tensor. -/
def jacobian (y : Tensor α) : Problem → Except Fault (Tensor α)
  | formulas f => (f.jacobian (y.map Exchange.toMixed)).map (·.map Exchange.ofMixed)
  | reference _ _ => KktData.jacobian y

end Values

/-- The shape of the residual for unknowns of a kind and a shape. -/
def residualShape (k : NumberKind) (y : Shape) : Problem → Except Fault Shape
  | formulas f => f.residualShape k y
  | reference data _ => data.residualShape k y

/-- The shape of the Jacobian for unknowns of a kind and a shape. -/
def jacobianShape (k : NumberKind) (y : Shape) : Problem → Except Fault Shape
  | formulas f => f.jacobianShape k y
  | reference _ needsNumbers =>
    if needsNumbers then .error .conversionNeedsValues else KktData.jacobianShape k y

/-- The system of `n` unknowns of a kind. -/
def system {α : Type} [Elementary α] [Inhabited α] [Exchange α] (p : Problem) (k : NumberKind)
    (n : Nat) : System α n where
  residual y := p.residual (.ofVector y)
  jacobian y := p.jacobian (.ofVector y)
  residualShape := p.residualShape k [n]
  jacobianShape := p.jacobianShape k [n]

/-- The residual at unknowns with slopes. -/
def residualJet (y : Tensor (Jet Mixed)) : Problem → Except Fault (Tensor (Jet Mixed))
  | formulas f => f.residual Jet.constant y
  | reference data _ => data.residual y

/-- The values can be differentiated : they are no integers. -/
def differentiable (t : Tensor (Jet Mixed)) : Except Fault (Tensor (Jet Mixed)) :=
  if t.entries.any fun x => x.value.kind.isWhole then .error .notDifferentiable else .ok t

/-- The largest difference between the Jacobian and the derivative of the residual at a
tensor. The Jacobian is evaluated first; integers have no derivative. -/
def jacobianError (p : Problem) (y : Tensor Mixed) : Except Fault Mixed := do
  let analytic ← p.jacobian y
  if y.entries.any fun x => x.kind.isWhole then throw .notDifferentiable
  let automatic ← derivative (fun z => (p.residualJet z).bind differentiable) y
  let largest ← Stationary.jacobianError analytic automatic
  match largest.refusal? with
  | some r => throw (.refused r)
  | none => pure largest

end Problem

end Stationary
