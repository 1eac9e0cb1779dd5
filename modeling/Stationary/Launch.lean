import Stationary.Problem
import Stationary.RootFind
import Stationary.Run

/-!
# Runs from a tensor

A caller starts a run from a tensor, whose shape says how many unknowns there are. A
tensor that is no vector is refused (`launch`), with an empty journal : nothing has been
evaluated. `Problem.run`, `Problem.solve` and `Problem.rootFind` are the three drivers
on a problem. The last one looks at the shape of the residual before anything else, and
so may find a fault even where the tensor is no vector.
-/

namespace Stationary

/-- How a run ended : with the number of unknowns, a result or its cause of failure, and
the journal. -/
structure Ending (α : Type) (β : Nat → Type) where
  size : Nat
  result : Except Failure (β size)
  journal : Journal α size

section Launching

variable {α : Type} {β : Nat → Type}

/-- An ending without a journal. -/
def Ending.refused (cause : Failure) : Ending α β :=
  { size := 0, result := .error cause, journal := #[] }

/-- A run for each number of unknowns, started from a tensor. -/
def launch (driver : (n : Nat) → Vector α n → Journaled α n (β n)) (y : Tensor α) :
    Ending α β :=
  match y.shape with
  | [n] =>
    match y.toVector? n with
    | some v =>
      let (result, journal) := (driver n v).start
      { size := n, result := result, journal := journal }
    | none => .refused (.stateShape y.shape)
  | shape => .refused (.stateShape shape)

/-- A launch from a vector is the run from that vector. -/
theorem launch_ofVector (driver : (n : Nat) → Vector α n → Journaled α n (β n)) {n : Nat}
    (v : Vector α n) :
    launch driver (.ofVector v) =
      { size := n, result := (driver n v).start.1, journal := (driver n v).start.2 } := by
  have h : (Tensor.ofVector v).toVector? n = some v := by simp
  simp only [launch, Tensor.ofVector] at h ⊢
  simp [h]

end Launching

namespace Problem

variable {α : Type} [Elementary α] [Decomposes α] [Inhabited α] [OfKind α]

/-- The run from a tensor. -/
def run (p : Problem) (newton : Newton α) (y : Tensor α) : Ending α (Solution α) :=
  launch (fun n v => newton.run (p.system (OfKind.kind α) n) v) y

/-- The answer of the run from a tensor. -/
def solve (p : Problem) (newton : Newton α) (y : Tensor α) :
    Ending α fun n => Except (Breakdown α n) (Bool × Vector α n) :=
  launch (fun n v => Stationary.solve newton (p.system (OfKind.kind α) n) v) y

/-- The iteration from a tensor under a budget of the caller. -/
def rootFind (p : Problem) (newton : Newton α) (budget : Nat) (y : Tensor α) :
    Ending α (Root α) :=
  match p.residualShape (OfKind.kind α) y.shape with
  | .error fault => .refused (.fault fault)
  | .ok _ => launch (fun n v => newton.rootFind (p.system (OfKind.kind α) n) budget v) y

end Problem

end Stationary
