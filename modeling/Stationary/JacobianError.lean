import Stationary.Formula

/-!
# Checking a Jacobian

`derivative` differentiates a function of the unknowns forward, one direction for each
component, and `jacobianError` is the largest magnitude of the difference between a
hand-written Jacobian and that derivative. The difference is taken as tensors of
unequal shapes are combined, so a Jacobian of another shape may be compared.
-/

namespace Stationary

variable {α : Type}

/-- The unknowns as jets, each with slope one in its own direction. -/
def directions [Elementary α] (y : Tensor α) : Tensor (Jet α) :=
  { shape := y.shape
    entries := y.entries.mapIdx fun i x =>
      { value := x
        slopes := some (Array.ofFn fun j : Fin y.entries.size =>
          (Elementary.matched x (if (j : Nat) = i then 1 else 0)).2) }
    size_eq := by simp [y.size_eq] }

/-- The derivatives of a tensor of jets, along the axes of the unknowns. -/
def slopesAlong [Zero α] (unknowns : Shape) (t : Tensor (Jet α)) : Option (Tensor α) :=
  Tensor.ofArray? (t.shape ++ unknowns) (t.entries.flatMap fun d => d.slopesOf unknowns.size)

/-- The derivative of a function of the unknowns. -/
def derivative [Elementary α]
    (F : Tensor (Jet α) → Except Fault (Tensor (Jet α))) (y : Tensor α) :
    Except Fault (Tensor α) := do
  let t ← F (directions y)
  orFault .incompatibleShapes (slopesAlong y.shape t)

variable [Scalar α]

/-- The largest of the entries, undefined as soon as one of them is. -/
def largestOf (t : Tensor α) : Except Fault α :=
  match t.entries.toList with
  | [] => .error .emptyMaximum
  | x :: xs => .ok (xs.foldl Scalar.max x)

/-- The largest difference between a Jacobian and a derivative. -/
def jacobianError [Inhabited α] (analytic automatic : Tensor α) : Except Fault α := do
  let d ← combined (fun a b => Scalar.abs (a - b)) analytic automatic
  largestOf d

end Stationary
