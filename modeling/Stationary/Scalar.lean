/-!
# Scalars

`Scalar` is the arithmetic of the Newton iteration : the field operations, magnitude,
square root, maximum, two comparisons, a test for finite values and the unit roundoff.
Comparisons are Boolean, so that a value without an order (not a number) compares
false both ways, and nothing else is assumed : the iteration is one definition for
binary64, binary32 and for exact numbers.

`FloatFormat` ties a binary format to binary64, which is the format numbers are read
in and written from. Between the two formats a number is unpacked, rounded and packed.
-/

namespace Stationary

open Float.Model (Format UnpackedFloat)

/-- The arithmetic that the iteration uses. -/
class Scalar (α : Type) extends Zero α, One α, Add α, Sub α, Mul α, Div α, Neg α where
  /-- The magnitude of a number. -/
  abs : α → α
  /-- The square root. -/
  sqrt : α → α
  /-- The larger of two numbers; not a number as soon as one of them is not. Of two zeros
  with different signs it is the positive one. -/
  max : α → α → α
  /-- Strictly below. -/
  lt : α → α → Bool
  /-- Below or equal. -/
  le : α → α → Bool
  /-- Neither infinite nor undefined. -/
  isFinite : α → Bool
  /-- The distance from one to the next larger number. -/
  eps : α
  /-- A natural number in this arithmetic. -/
  ofNat : Nat → α

/-- An unpacked number rounded to a format. -/
def roundedTo (format : Format) : UnpackedFloat → UnpackedFloat
  | .finite sign mantissa exponent _ => .round format sign mantissa exponent
  | other => other

/-- The nearest binary32 number. -/
def toBinary32 (x : Float) : Float32 :=
  .ofModel (.pack (roundedTo .binary32 x.toModel.unpack))

/-- The same number in binary64. -/
def toBinary64 (x : Float32) : Float :=
  .ofModel (.pack (roundedTo .binary64 x.toModel.unpack))

/-- A binary format whose values are binary64 values too. -/
class FloatFormat (α : Type) where
  /-- The name of the format. -/
  name : String
  /-- The nearest value of the format. -/
  ofFloat : Float → α
  /-- The same value in binary64. -/
  toFloat : α → Float

/-- The maximum in binary64. An undefined argument is the answer, and two zeros are added,
which gives the positive one. -/
def binary64Max (x y : Float) : Float :=
  if x.isNaN then x
  else if y.isNaN then y
  else if x < y then y
  else if x == 0 && y == 0 then x + y
  else x

/-- The maximum in binary32, by the same rule. -/
def binary32Max (x y : Float32) : Float32 :=
  if x.isNaN then x
  else if y.isNaN then y
  else if x < y then y
  else if x == 0 && y == 0 then x + y
  else x

/-- Binary64, with unit roundoff `2⁻⁵²`. -/
instance : Scalar Float where
  zero := 0.0
  one := 1.0
  abs := Float.abs
  sqrt := Float.sqrt
  max := binary64Max
  lt x y := x < y
  le x y := x ≤ y
  isFinite := Float.isFinite
  eps := Float.ofBits 0x3CB0000000000000
  ofNat := Float.ofNat

/-- Binary32, with unit roundoff `2⁻²³`. -/
instance : Scalar Float32 where
  zero := 0.0
  one := 1.0
  abs := Float32.abs
  sqrt := Float32.sqrt
  max := binary32Max
  lt x y := x < y
  le x y := x ≤ y
  isFinite := Float32.isFinite
  eps := Float32.ofBits 0x34000000
  ofNat := Float32.ofNat

instance : FloatFormat Float where
  name := "float64"
  ofFloat x := x
  toFloat x := x

instance : FloatFormat Float32 where
  name := "float32"
  ofFloat := toBinary32
  toFloat := toBinary64

end Stationary
