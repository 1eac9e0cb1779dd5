import Stationary.Scalar

/-!
# Elementary functions

`Elementary` is the arithmetic in which formulas are evaluated : the arithmetic of the
iteration with the elementary functions, powers and a choice between two values. A value
may carry more than a number, or less, so powers and the choice belong to the arithmetic,
and whether a condition holds may be unknown (`Elementary.positive?`).

A number may also be of one of several kinds. Then two numbers, or the numbers of one
array, are brought to one kind (`Elementary.matched`, `Elementary.alike`), and a value may
say why there is none (`Elementary.refusal?`). Where all numbers are of one kind
(`UniformKind`) none of these does anything.
-/

namespace Stationary

/-- Why arithmetic has no result. -/
inductive Refusal
  /-- A number is too large for its place. -/
  | tooLarge
  /-- Zero to a negative power. -/
  | divisionByZero
  /-- The operation is not defined for the kind of its numbers. -/
  | undefinedForKind
  /-- An integer to a negative power, on the host. -/
  | negativeExponent
  deriving DecidableEq

/-- Arithmetic with elementary functions. -/
class Elementary (α : Type) extends Scalar α where
  ofFloat : Float → α
  /-- The number of an integer. -/
  ofInt : Int → α := fun i => ofFloat (Float.ofInt i)
  exp : α → α
  log : α → α
  sin : α → α
  cos : α → α
  tanh : α → α
  /-- The power with an integer exponent. -/
  power : α → Int → α
  /-- A condition is above zero, where this is known. -/
  positive? : α → Option Bool := fun c => some (Scalar.lt 0 c)
  /-- The first value if the condition is above zero, and otherwise the second. -/
  choose : α → α → α → α := fun c x y => if Scalar.lt 0 c then x else y
  /-- Two numbers, brought to one kind. -/
  matched : α → α → α × α := fun x y => (x, y)
  /-- The numbers of one array, brought to one kind. -/
  alike : Array α → Array α := fun xs => xs
  /-- Why the number is none. -/
  refusal? : α → Option Refusal := fun _ => none

/-- All numbers of the arithmetic are of one kind. -/
structure UniformKind (α : Type) [Elementary α] : Prop where
  refusal?_eq_none (x : α) : Elementary.refusal? x = none
  matched_eq (x y : α) : Elementary.matched x y = (x, y)
  alike_eq (xs : Array α) : Elementary.alike xs = xs

/-- The power with a positive exponent, by squaring : `acc` times `x ^ k`. -/
def powerBySquaring {α : Type} [Mul α] (x : α) (k : Nat) (acc : Option α) : Option α :=
  if k = 0 then acc
  else
    let acc :=
      if k % 2 = 1 then
        match acc with
        | none => some x
        | some a => some (a * x)
      else acc
    powerBySquaring (x * x) (k / 2) acc
termination_by k

/-- The power with an integer exponent, by squaring. -/
def integerPower {α : Type} [One α] [Mul α] [Div α] (x : α) (k : Int) : α :=
  match powerBySquaring x k.natAbs none with
  | none => 1
  | some p => if k < 0 then 1 / p else p

instance : Elementary Float where
  ofFloat x := x
  exp := Float.exp
  log := Float.log
  sin := Float.sin
  cos := Float.cos
  tanh := Float.tanh
  power x k := integerPower x k

instance : Elementary Float32 where
  ofFloat := toBinary32
  ofInt := Float32.ofInt
  exp := Float32.exp
  log := Float32.log
  sin := Float32.sin
  cos := Float32.cos
  tanh := Float32.tanh
  power x k := integerPower x k

end Stationary
