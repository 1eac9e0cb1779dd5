import Stationary.Configuration
import Stationary.NumericArray

/-!
# Linear systems as a caller gives them

A caller gives a matrix and a right-hand side as arrays in some format, and settings
for the method and for the pivot threshold. `Operands.system?` accepts a square matrix
and a vector of its length, both in a binary format. If the formats differ the wider one
is that of the solution; the factors of a matrix stay in the matrix's own format.
-/

namespace Stationary

/-- Why a linear system is refused. -/
inductive LinearError
  /-- The setting names no method. -/
  | method (cause : SettingsError)
  /-- The shapes or formats are not those of a linear system. -/
  | notASystem
  /-- The pivot threshold is neither a float nor left out. -/
  | pivotThreshold
  /-- Elimination of no unknowns has no largest pivot. -/
  | withoutUnknowns

/-- A step with its format. -/
structure FormattedStep where
  format : NumberFormat
  /-- The components, unless they cannot be used. -/
  delta : Option (Array Float)

namespace LinearStep

variable {β : Type} {n : Nat}

/-- The step with its components in binary64. -/
def formatted [FloatFormat β] (format : NumberFormat) (s : LinearStep β n) : FormattedStep where
  format := format
  delta := if s.usable then some (s.delta.map FloatFormat.toFloat).toArray else none

end LinearStep

/-- A square matrix and a right-hand side of its length, with their formats. -/
structure Operands where
  size : Nat
  matrix : SquareMatrix Float size
  rhs : Vector Float size
  matrixFormat : NumberFormat
  rhsFormat : NumberFormat

namespace Operands

/-- The linear system of two operands. -/
def system? (A b : NumericArray) : Option Operands :=
  if A.format.isBinary && b.format.isBinary then
    match A.shape with
    | [n, _] =>
      match A.floats.toMatrix? n, b.floats.toVector? n with
      | some M, some v => some ⟨n, M, v, A.format, b.format⟩
      | _, _ => none
    | _ => none
  else none

/-- Both operands are in binary32. -/
def narrow (s : Operands) : Bool :=
  s.matrixFormat = .binary32 && s.rhsFormat = .binary32

/-- The matrix in another format. -/
def matrixIn (α : Type) [FloatFormat α] (s : Operands) : SquareMatrix α s.size :=
  s.matrix.map fun row => row.map FloatFormat.ofFloat

/-- The right-hand side in another format. -/
def rhsIn (α : Type) [FloatFormat α] (s : Operands) : Vector α s.size :=
  s.rhs.map FloatFormat.ofFloat

/-- The pivot threshold of a setting. -/
def threshold (α : Type) [Elementary α] (n : Nat) (pivotRtol : Setting) : Option α :=
  match (PivotThreshold.ofSetting pivotRtol : PivotThreshold α) with
  | .standard => some (LinearStep.standardPivotRtol n)
  | .relative r => some r
  | .unusable => none

/-- The step by elimination. -/
def lu (s : Operands) (pivotRtol : Setting) : Except LinearError FormattedStep :=
  match threshold Binary64 s.size pivotRtol, threshold Binary32 s.size pivotRtol with
  | some r, some r₃₂ =>
    if s.size = 0 then .error .withoutUnknowns
    else if s.narrow then
      .ok ((LinearStep.lu (s.matrixIn Binary32) (s.rhsIn Binary32) r₃₂).formatted .binary32)
    else if s.matrixFormat = .binary32 then
      .ok ((LinearStep.luWidened widen (s.matrixIn Binary32) (s.rhsIn Binary64) r₃₂).formatted
        .binary64)
    else .ok ((LinearStep.lu (s.matrixIn Binary64) (s.rhsIn Binary64) r).formatted .binary64)
  | _, _ => .error .pivotThreshold

/-- The least-squares step. -/
def leastSquares (s : Operands) : FormattedStep :=
  if s.narrow then
    (LinearStep.leastSquares (s.matrixIn Binary32) (s.rhsIn Binary32)).formatted .binary32
  else (LinearStep.leastSquares (s.matrixIn Binary64) (s.rhsIn Binary64)).formatted .binary64

end Operands

/-- The step of two operands by a known method; a least-squares step needs no threshold. -/
def linearStepBy (method : LinearMethod) (A b : NumericArray) (pivotRtol : Setting) :
    Except LinearError FormattedStep :=
  match Operands.system? A b with
  | none => .error .notASystem
  | some s =>
    match method with
    | .lu => s.lu pivotRtol
    | .leastSquares => .ok s.leastSquares

/-- The step of two operands by the method of a setting. -/
def linearStepOf (method : Setting) (A b : NumericArray) (pivotRtol : Setting) :
    Except LinearError FormattedStep :=
  match Solver.checkMethod method with
  | .ok m => linearStepBy m A b pivotRtol
  | .error cause => .error (.method cause)

/-- The text of the error, where it has one. -/
def LinearError.message? : LinearError → Option String
  | method cause => cause.message?
  | notASystem => none
  | pivotThreshold => none
  | withoutUnknowns => none

end Stationary
