import Stationary.Elementary

/-!
# Operations

The functions of one and of two numbers from which formulas are built, by their names.
`UnaryOp.apply` and `BinaryOp.apply` compute them in any arithmetic with elementary
functions.
-/

namespace Stationary

/-- Functions of one argument. -/
inductive UnaryOp
  | neg | sqrt | exp | log | sin | cos | tanh | abs
  deriving DecidableEq

/-- Functions of two arguments. -/
inductive BinaryOp
  | add | sub | mul | div | max
  deriving DecidableEq

variable {α : Type} [Elementary α]

/-- A function of one argument on numbers. -/
def UnaryOp.apply : UnaryOp → α → α
  | neg, x => -x
  | sqrt, x => Scalar.sqrt x
  | exp, x => Elementary.exp x
  | log, x => Elementary.log x
  | sin, x => Elementary.sin x
  | cos, x => Elementary.cos x
  | tanh, x => Elementary.tanh x
  | abs, x => Scalar.abs x

/-- A function of two arguments on numbers. -/
def BinaryOp.apply : BinaryOp → α → α → α
  | add, x, y => x + y
  | sub, x, y => x - y
  | mul, x, y => x * y
  | div, x, y => x / y
  | max, x, y => Scalar.max x y

end Stationary
