import Stationary.System

/-!
# The reference stationarity system

The objective `c₁ x₁ + c₂ x₂` is minimised under three inequalities and one equality,

* `g₁ = x₁ + x₂ - capacity ≤ 0`, `g₂ = -x₁ ≤ 0`, `g₃ = -x₂ ≤ 0`,
* `h₁ = x₁² + x₂² - radiusSq = 0`,

with multipliers `λ₁`, `λ₂`, `λ₃` and `μ₁`. The unknowns are `(x₁, x₂, λ₁, λ₂, λ₃, μ₁)`,
and the system asks for a stationary point of the Lagrangian at which every constraint
is active : the two derivatives in `x`, and the four constraint functions.

The definitions use ring operations only, so they are the same over binary formats,
over jets and over exact numbers. `Kkt.system` is the system of a problem, whose
values have the right shapes by type.
-/

namespace Stationary

/-- The data of the reference problem. -/
structure Kkt (α : Type) where
  cost₁ : α
  cost₂ : α
  capacity : α
  radiusSq : α

namespace Kkt

/-- The names of the unknowns. -/
def labels : List String :=
  ["x1", "x2", "lambda1", "lambda2", "lambda3", "mu1"]

/-- The number of unknowns. -/
def size : Nat := 6

/-- The tags that clamp the multipliers of the inequalities only. -/
def inequalityTags : List Int := [0, 0, 1, 1, 1, 0]

variable {α : Type}

/-- The guess of ones. -/
def initialGuess [One α] : Vector α 6 := Vector.replicate 6 1

section Values

variable [Add α] [Sub α] [Mul α] [Neg α]

/-- The residual : the derivatives of the Lagrangian. -/
def residual (p : Kkt α) (y : Vector α 6) : Vector α 6 :=
  let x₁ := y[0]
  let x₂ := y[1]
  let l₁ := y[2]
  let l₂ := y[3]
  let l₃ := y[4]
  let m₁ := y[5]
  #v[p.cost₁ + l₁ - l₂ + (m₁ + m₁) * x₁,
    p.cost₂ + l₁ - l₃ + (m₁ + m₁) * x₂,
    x₁ + x₂ - p.capacity,
    -x₁,
    -x₂,
    x₁ * x₁ + x₂ * x₂ - p.radiusSq]

/-- The cost of a point. -/
def cost (p : Kkt α) (x₁ x₂ : α) : α :=
  p.cost₁ * x₁ + p.cost₂ * x₂

/-- The values of the inequalities at a point. -/
def inequalities (p : Kkt α) (x₁ x₂ : α) : Vector α 3 :=
  #v[x₁ + x₂ - p.capacity, -x₁, -x₂]

/-- The value of the objective. -/
def objective (p : Kkt α) (y : Vector α 6) : α :=
  p.cost y[0] y[1]

/-- The values of the inequalities. -/
def constraints (p : Kkt α) (y : Vector α 6) : Vector α 3 :=
  p.inequalities y[0] y[1]

/-- The products of multipliers and inequalities. -/
def complementarity (p : Kkt α) (y : Vector α 6) : Vector α 3 :=
  Vector.zipWith (· * ·) #v[y[2], y[3], y[4]] (p.constraints y)

end Values

/-- The Jacobian of the residual, which does not depend on the data. -/
def jacobian [Zero α] [One α] [Add α] [Neg α] (y : Vector α 6) : SquareMatrix α 6 :=
  let x₁ := y[0]
  let x₂ := y[1]
  let m₁ := y[5]
  #v[#v[m₁ + m₁, 0, 1, -1, 0, x₁ + x₁],
    #v[0, m₁ + m₁, 1, 0, -1, x₂ + x₂],
    #v[1, 1, 0, 0, 0, 0],
    #v[-1, 0, 0, 0, 0, 0],
    #v[0, -1, 0, 0, 0, 0],
    #v[x₁ + x₁, x₂ + x₂, 0, 0, 0, 0]]

/-- The Lagrangian : the objective, and the constraints times their multipliers. -/
def lagrangian [Scalar α] (p : Kkt α) (y : Vector α 6) : α :=
  p.objective y + Vec.dot #v[y[2], y[3], y[4]] (p.constraints y) +
    y[5] * (y[0] * y[0] + y[1] * y[1] - p.radiusSq)

/-- The system of the problem. -/
def system [Zero α] [One α] [Add α] [Sub α] [Mul α] [Neg α] (p : Kkt α) : System α 6 :=
  .ofMaps p.residual jacobian

/-- The problem with costs three and four, capacity four and squared radius four. -/
def standard [Scalar α] : Kkt α where
  cost₁ := Scalar.ofNat 3
  cost₂ := Scalar.ofNat 4
  capacity := Scalar.ofNat 4
  radiusSq := Scalar.ofNat 4

end Kkt

end Stationary
