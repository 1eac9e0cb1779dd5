import Stationary.Elementary
import Stationary.Tensor

/-!
# Systems

A system of `n` equations in `n` unknowns is a residual and a Jacobian, both arbitrary
functions of the unknowns with tensors as values : neither their shapes nor their
success is promised. Beside the values stand the shapes that are known without
evaluating anything; a function whose control flow needs numbers has none
(`Fault.needsValues`). `System.ofMaps` is the well-behaved case of two functions whose
values have the right shapes.
-/

namespace Stationary

/-- Why a function of the unknowns has no value. -/
inductive Fault
  /-- A list of `expected` values was asked for, and there are only `got`. -/
  | tooFewValues (expected got : Nat)
  /-- A list of `expected` values was asked for, and there are more. -/
  | tooManyValues (expected : Nat)
  /-- Two shapes with as many axes cannot be combined. -/
  | incompatibleShapes
  /-- Shapes are not parts of one common shape. -/
  | noCommonShape
  /-- The parts of a tensor have different shapes. -/
  | ragged
  /-- A component of an empty vector, or of a single number, was asked for. -/
  | outOfBounds
  /-- A parameter was asked for, and there are none. -/
  | noParameters
  /-- A condition is not a single number. -/
  | ambiguousCondition
  /-- A condition was asked for before there are numbers. -/
  | conditionNeedsValues
  /-- The unknowns were asked for as numbers before there are any. -/
  | conversionNeedsValues
  /-- Entries were selected by a condition before there are numbers. -/
  | selectionNeedsValues
  /-- The unknowns are integers where a derivative is asked for. -/
  | notDifferentiable
  /-- The largest of no numbers was asked for. -/
  | emptyMaximum
  /-- Arithmetic has no result. -/
  | refused (r : Refusal)
  deriving DecidableEq

namespace Fault

/-- The fault is one of those that are taken to say only that numbers are needed. A selection
is not one of them. -/
def needsValues : Fault → Bool
  | conditionNeedsValues => true
  | conversionNeedsValues => true
  | _ => false

/-- The text of a fault, where it has one. -/
def message? : Fault → Option String
  | tooFewValues expected got =>
    some ("not enough values to unpack (expected " ++ toString expected ++ ", got " ++
      toString got ++ ")")
  | tooManyValues expected =>
    some ("too many values to unpack (expected " ++ toString expected ++ ")")
  | _ => none

end Fault

/-- A value, or a fault where there is none. -/
def orFault {β : Type} (f : Fault) : Option β → Except Fault β
  | some b => .ok b
  | none => .error f

section Values

variable {α β γ : Type}

/-- The tensor, unless one of its numbers is none. -/
def accepted [Elementary α] (t : Tensor α) : Except Fault (Tensor α) :=
  match t.entries.findSome? Elementary.refusal? with
  | none => .ok t
  | some r => .error (.refused r)

/-- In an arithmetic with one kind of numbers every number is one. -/
theorem UniformKind.accepted_eq_ok [Elementary α] (h : UniformKind α) (t : Tensor α) :
    accepted t = .ok t := by
  have : t.entries.findSome? Elementary.refusal? = none := by
    simp [Array.findSome?_eq_none_iff, h.refusal?_eq_none]
  simp [accepted, this]

/-- Two tensors combined entry by entry. -/
def combined [Inhabited α] [Inhabited β] (f : α → β → γ) (s : Tensor α) (t : Tensor β) :
    Except Fault (Tensor γ) :=
  orFault
    (if s.shape.length = t.shape.length then .incompatibleShapes else .noCommonShape)
    (s.zip? f t)

end Values

/-- A residual and a Jacobian in `n` unknowns. -/
structure System (α : Type) (n : Nat) where
  residual : Vector α n → Except Fault (Tensor α)
  jacobian : Vector α n → Except Fault (Tensor α)
  residualShape : Except Fault Shape
  jacobianShape : Except Fault Shape

namespace System

variable {α : Type} {n : Nat}

/-- The system of two functions whose values have the right shapes. -/
def ofMaps (F : Vector α n → Vector α n) (J : Vector α n → SquareMatrix α n) : System α n where
  residual y := .ok (.ofVector (F y))
  jacobian y := .ok (.ofMatrix (J y))
  residualShape := .ok [n]
  jacobianShape := .ok [n, n]

end System

end Stationary
