import Stationary.Flushed
import Stationary.Kinded

/-!
# Numbers of several kinds

A `Mixed` number is a number with its kind and its value, which is a literal : an integer
for the integer kinds, and zero or one for truth values, and otherwise a binary64 number,
which every binary32 number is. Integers wrap around. Numbers of a binary format compute
in their format, on a device without subnormal numbers (`Flushed`).

An `Outline` is a number of which the kind alone is known.
-/

namespace Stationary

/-- A number with its kind and its value. -/
abbrev Mixed := Kinded Literal

/-- A number of which the kind alone is known. -/
abbrev Outline := Kinded Unit

namespace Literal

/-- The integer value; a binary64 number loses its fraction. -/
def toInt : Literal → Int
  | whole i => i
  | float x => WholeFormat.int64.truncate x

/-- The value in binary32. -/
def toFloat32 : Literal → Float32
  | whole i => Float32.ofInt i
  | float x => toBinary32 x

/-- A binary32 number. -/
def ofFloat32 (x : Float32) : Literal :=
  float (toBinary64 x)

/-- A plain number as the host puts it into an array of a kind : by way of binary64 where
the kind is a binary one. -/
def stored (k : NumberKind) (l : Literal) : Literal :=
  match k with
  | .truth => whole (if l.toFloat == 0 then 0 else 1)
  | .anyWhole => whole l.toInt
  | .whole f => whole (f.wrap l.toInt)
  | .binary32 => ofFloat32 (toBinary32 l.toFloat)
  | _ => float l.toFloat

/-- An integer in a kind. -/
def convertWhole (i : Int) : NumberKind → Literal
  | .truth => whole (if i = 0 then 0 else 1)
  | .anyWhole => whole i
  | .whole f => whole (f.wrap i)
  | .binary32 => ofFloat32 (Float32.ofInt i)
  | _ => float (Float.ofInt i)

/-- A binary64 number in a kind. -/
def convertFloat (x : Binary64) : NumberKind → Literal
  | .truth => whole (if Scalar.le x 0 && Scalar.le 0 x then 0 else 1)
  | .anyWhole => whole (WholeFormat.int64.truncate x.value)
  | .whole f => whole (f.truncate x.value)
  | .binary32 => ofFloat32 (narrow x).value
  | _ => float x.value

/-- The number of one kind in another. A number that stays in its format stays as it is. -/
def convert (source target : NumberKind) (l : Literal) : Literal :=
  if source = target then l
  else
    match l with
    | whole i => convertWhole i target
    | float x =>
      if source = .binary32 then convertFloat (widen ⟨toBinary32 x⟩) target
      else convertFloat ⟨x⟩ target

end Literal

/-- A function of two truth values. -/
def BinaryOp.onTruths : BinaryOp → Bool → Bool → Bool
  | mul, a, b => a && b
  | _, a, b => a || b

/-- A function of two integers. -/
def BinaryOp.onWholes : BinaryOp → Int → Int → Int
  | add, i, j => i + j
  | sub, i, j => i - j
  | mul, i, j => i * j
  | max, i, j => if i < j then j else i
  | div, i, j => i.tdiv j

/-- A function of one integer. -/
def UnaryOp.onWhole : UnaryOp → Int → Int
  | neg, i => -i
  | abs, i => i.natAbs
  | _, i => i

namespace Literal

/-- A function of a number, in a kind. -/
def unary (k : NumberKind) (op : UnaryOp) (l : Literal) : Literal :=
  match k with
  | .truth => l
  | .binary32 => ofFloat32 (op.apply (⟨l.toFloat32⟩ : Binary32)).value
  | .binary64 => float (op.apply (⟨l.toFloat⟩ : Binary64)).value
  | .anyFloat => float (op.apply (⟨l.toFloat⟩ : Binary64)).value
  | k => whole (k.wholeFormat.wrap (op.onWhole l.toInt))

/-- A function of two numbers on a device, in a kind. -/
def binaryOnDevice (k : NumberKind) (op : BinaryOp) (l m : Literal) : Literal :=
  match k with
  | .truth => whole (if op.onTruths (l.toInt ≠ 0) (m.toInt ≠ 0) then 1 else 0)
  | .binary32 => ofFloat32 (op.apply (⟨l.toFloat32⟩ : Binary32) ⟨m.toFloat32⟩).value
  | .binary64 => float (op.apply (⟨l.toFloat⟩ : Binary64) ⟨m.toFloat⟩).value
  | .anyFloat => float (op.apply (⟨l.toFloat⟩ : Binary64) ⟨m.toFloat⟩).value
  | k => whole (k.wholeFormat.wrap (op.onWholes l.toInt m.toInt))

/-- A function of two numbers, in a kind. -/
def binary (home : ArrayHome) (k : NumberKind) (op : BinaryOp) (l m : Literal) : Literal :=
  match home, k with
  | .host, .binary32 => ofFloat32 (op.apply l.toFloat32 m.toFloat32)
  | .host, .binary64 => float (op.apply l.toFloat m.toFloat)
  | _, k => binaryOnDevice k op l m

/-- A power, in a kind. On the host a binary number has the power of the exponent as a
number of its format, on a device it is multiplied with itself. -/
def powerInKind (home : ArrayHome) (k : NumberKind) (l : Literal) (n : Int) : Literal :=
  match home, k with
  | .host, .binary32 => ofFloat32 (Float32.pow l.toFloat32 (Float32.ofInt n))
  | .host, .binary64 => float (Float.pow l.toFloat (Float.ofInt n))
  | _, .binary32 => ofFloat32 (Elementary.power (⟨l.toFloat32⟩ : Binary32) n).value
  | _, .binary64 => float (Elementary.power (⟨l.toFloat⟩ : Binary64) n).value
  | _, .anyFloat => float (Elementary.power (⟨l.toFloat⟩ : Binary64) n).value
  | _, k => whole (k.wholeFormat.power l.toInt n.toNat)

/-- A comparison of two numbers on a device, in a kind. -/
def compare (wholes : Int → Int → Bool) (narrows : Binary32 → Binary32 → Bool)
    (wides : Binary64 → Binary64 → Bool) (k : NumberKind) (l m : Literal) : Bool :=
  if k.isWhole then wholes l.toInt m.toInt
  else if k = .binary32 then narrows ⟨l.toFloat32⟩ ⟨m.toFloat32⟩
  else wides ⟨l.toFloat⟩ ⟨m.toFloat⟩

/-- A number of an array is above zero. -/
def isPositive (home : ArrayHome) (k : NumberKind) (l : Literal) : Bool :=
  match home with
  | .host => l.positive
  | .device => compare (· < ·) Scalar.lt Scalar.lt k (stored k (whole 0)) l

end Literal

instance : Content Literal where
  ofLiteral := Literal.stored
  convert := Literal.convert
  unary := Literal.unary
  binary := Literal.binary
  power := Literal.powerInKind
  positive? home k l := some (Literal.isPositive home k l)
  lt := Literal.compare (· < ·) Scalar.lt Scalar.lt
  le := Literal.compare (· ≤ ·) Scalar.le Scalar.le
  isFinite
    | .whole _ => true
    | .float x => x.isFinite

/-- Without values there is nothing to compute. -/
instance : Content Unit where
  ofLiteral _ _ := ()
  convert _ _ _ := ()
  unary _ _ _ := ()
  binary _ _ _ _ _ := ()
  power _ _ _ _ := ()
  positive? _ _ _ := none
  lt _ _ _ := false
  le _ _ _ := false
  isFinite _ := true

namespace Mixed

/-- The value as a literal; there is none where there is no number. -/
def literal : Mixed → Literal
  | .plain l => l
  | .entry _ _ l => l
  | .refused _ => .float (0.0 / 0.0)

/-- The value in binary64. -/
def toFloat (x : Mixed) : Float :=
  x.literal.toFloat

/-- The kind without the value. -/
def outline : Mixed → Outline
  | .plain l => .plain l
  | .entry home k _ => .entry home k ()
  | .refused r => .refused r

end Mixed

/-- Arithmetics whose numbers can be taken for numbers with a kind and back. -/
class Exchange (α : Type) where
  /-- The number with its kind. -/
  toMixed : α → Mixed
  /-- The number in the arithmetic. -/
  ofMixed : Mixed → α

/-- Arithmetics whose numbers are all of one kind. -/
class OfKind (α : Type) extends Exchange α where
  kind : NumberKind

instance : Exchange Mixed where
  toMixed x := x
  ofMixed x := x

instance : OfKind Binary64 where
  toMixed x := .entry .device .binary64 (.float x.value)
  ofMixed x := ⟨Mixed.toFloat (x.inKind .binary64)⟩
  kind := .binary64

instance : OfKind Binary32 where
  toMixed x := .entry .device .binary32 (.ofFloat32 x.value)
  ofMixed x := ⟨(Mixed.literal (x.inKind .binary32)).toFloat32⟩
  kind := .binary32

end Stationary
