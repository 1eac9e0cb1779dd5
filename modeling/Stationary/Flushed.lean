import Stationary.Elementary
import Stationary.Rotations

/-!
# Arithmetic without subnormal numbers

The numbers of a binary format between zero and the smallest normal number have fewer
digits than the others. The arithmetic of `Flushed` numbers leaves them out : an
operation takes a subnormal argument for the zero of the same sign (`flush`), and gives
such a zero where its result would be subnormal. So does a comparison. What does not
compute leaves a number as it is : a subnormal number can be read, stored, negated,
chosen and written, and it is its own sine. In binary32 it is its own hyperbolic tangent
too, which the function is for all small arguments there.

`Binary64` and `Binary32` are the two formats in this arithmetic.
-/

namespace Stationary

/-- Formats with subnormal numbers. -/
class Subnormal (α : Type) where
  /-- The smallest positive number that is not subnormal. -/
  smallestNormal : α
  /-- A subnormal number is its own hyperbolic tangent. -/
  keepsTanh : Bool

/-- The smallest normal number of binary64, `2⁻¹⁰²²`. -/
instance : Subnormal Float where
  smallestNormal := Float.ofBits 0x0010000000000000
  keepsTanh := false

/-- The smallest normal number of binary32, `2⁻¹²⁶`. -/
instance : Subnormal Float32 where
  smallestNormal := Float32.ofBits 0x00800000
  keepsTanh := true

/-- The number is below all normal numbers. -/
def isSubnormal {α : Type} [Scalar α] [Subnormal α] (x : α) : Bool :=
  Scalar.lt (Scalar.abs x) Subnormal.smallestNormal

/-- The number, or the zero of its sign if it is subnormal. -/
def flush {α : Type} [Scalar α] [Subnormal α] (x : α) : α :=
  if isSubnormal x then x * 0 else x

/-- A number of a format, in an arithmetic without subnormal numbers. -/
@[ext] structure Flushed (α : Type) where
  value : α
  deriving DecidableEq

/-- Binary64 without subnormal numbers in its arithmetic. -/
abbrev Binary64 := Flushed Float

/-- Binary32 without subnormal numbers in its arithmetic. -/
abbrev Binary32 := Flushed Float32

namespace Flushed

variable {α : Type}

section Operations

variable [Scalar α] [Subnormal α]

/-- A function of one number. -/
def lift (f : α → α) (x : Flushed α) : Flushed α :=
  ⟨flush (f (flush x.value))⟩

/-- A function of two numbers. -/
def lift₂ (f : α → α → α) (x y : Flushed α) : Flushed α :=
  ⟨flush (f (flush x.value) (flush y.value))⟩

end Operations

instance [Inhabited α] : Inhabited (Flushed α) := ⟨⟨default⟩⟩

instance [Scalar α] [Subnormal α] : Scalar (Flushed α) where
  zero := ⟨0⟩
  one := ⟨1⟩
  add := lift₂ (· + ·)
  sub := lift₂ (· - ·)
  mul := lift₂ (· * ·)
  div := lift₂ (· / ·)
  neg x := ⟨-x.value⟩
  abs x := ⟨Scalar.abs x.value⟩
  sqrt := lift Scalar.sqrt
  max := lift₂ Scalar.max
  lt x y := Scalar.lt (flush x.value) (flush y.value)
  le x y := Scalar.le (flush x.value) (flush y.value)
  isFinite x := Scalar.isFinite x.value
  eps := ⟨Scalar.eps⟩
  ofNat n := ⟨Scalar.ofNat n⟩

instance [Elementary α] [Subnormal α] : Elementary (Flushed α) where
  ofFloat x := ⟨Elementary.ofFloat x⟩
  ofInt i := ⟨Elementary.ofInt i⟩
  exp := lift Elementary.exp
  log := lift Elementary.log
  sin x := ⟨Elementary.sin x.value⟩
  cos := lift Elementary.cos
  tanh x :=
    if Subnormal.keepsTanh α && isSubnormal x.value then x else lift Elementary.tanh x
  power x k := integerPower x k

/-- Flushed numbers are all of one kind. -/
theorem uniformKind [Elementary α] [Subnormal α] : UniformKind (Flushed α) :=
  ⟨fun _ => rfl, fun _ _ => rfl, fun _ => rfl⟩

instance [FloatFormat α] : FloatFormat (Flushed α) where
  name := FloatFormat.name α
  ofFloat x := ⟨FloatFormat.ofFloat x⟩
  toFloat x := FloatFormat.toFloat x.value

instance [Scalar α] [Subnormal α] [Binade α] : Binade (Flushed α) where
  binade x := ⟨Binade.binade (flush x.value)⟩

instance [Scalar α] [Subnormal α] [Binade α] : Decomposes (Flushed α) := ⟨svdByRotations⟩

end Flushed

/-- A binary32 number in binary64. The conversion computes. -/
def widen (x : Binary32) : Binary64 :=
  ⟨toBinary64 (flush x.value)⟩

/-- A binary64 number in binary32. The conversion computes. -/
def narrow (x : Binary64) : Binary32 :=
  ⟨flush (toBinary32 x.value)⟩

end Stationary
