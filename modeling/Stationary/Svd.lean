import Stationary.Vec

/-!
# Singular values and the minimum-norm step

An `Svd` holds what a singular value decomposition `A = U diag(s) Vᵀ` is made of : the
columns of `U`, the singular values and the columns of `V`. `Svd.solve` applies
`V diag(w) Uᵀ` to a right-hand side, where the weight `w` of a singular value is its
inverse if the value is positive and not below `n · eps` times the largest one, and
zero otherwise (`Svd.weight`). How the decomposition is found is a class of its own,
`Decomposes`, so that the step can be studied over an exact decomposition.
-/

namespace Stationary

/-- A singular value decomposition : left vectors, singular values, right vectors. -/
structure Svd (α : Type) (n : Nat) where
  left : Vector (Vector α n) n
  values : Vector α n
  right : Vector (Vector α n) n

/-- Scalars over which square matrices are taken apart into singular values. -/
class Decomposes (α : Type) where
  svd : {n : Nat} → SquareMatrix α n → Svd α n

namespace Svd

variable {α : Type} {n : Nat} [Scalar α]

/-- The largest singular value. -/
def largest (d : Svd α n) : α :=
  d.values.foldl Scalar.max 0

/-- Singular values below this one count as zero. -/
def cutoff (d : Svd α n) : α :=
  Scalar.ofNat n * Scalar.eps * d.largest

/-- The weight of a singular value : its inverse, or zero if it counts as zero. -/
def weight (d : Svd α n) (s : α) : α :=
  if Scalar.lt 0 s && Scalar.le d.cutoff s then 1 / s else 0

/-- The coordinates of the minimum-norm solution along the right vectors. -/
def coordinates (d : Svd α n) (b : Vector α n) : Vector α n :=
  Vector.zipWith (fun s u => d.weight s * Vec.dot u b) d.values d.left

/-- The minimum-norm least-squares solution. -/
def solve (d : Svd α n) (b : Vector α n) : Vector α n :=
  let c := d.coordinates b
  Vector.ofFn fun i : Fin n => Vec.dot (d.right.map fun v => v.get i) c

end Svd

end Stationary
