import Stationary.Elementary

/-!
# Jets

A jet is a value with its derivatives in several directions. A constant has no
derivatives at all, which is not the same as derivatives that are zero : a product of
an infinite value with a derivative of zero is undefined, with no derivative it is
nothing. `Jet.chain` is the chain rule; the rules of the elementary functions follow
from it, with these conventions where there is no derivative : the magnitude has
derivative zero at zero, and a maximum of two equal numbers halves the derivatives of
both.

Where two jets meet they are brought to one kind first, with their derivatives
(`Jet.matched`).
-/

namespace Stationary

/-- A value and its derivatives, if it is no constant. -/
structure Jet (α : Type) where
  value : α
  slopes : Option (Array α)

namespace Jet

variable {α : Type}

/-- A value without derivatives. -/
def constant (x : α) : Jet α := ⟨x, none⟩

/-- The sum of two lots of derivatives. -/
def addSlopes [Add α] : Option (Array α) → Option (Array α) → Option (Array α)
  | none, s => s
  | s, none => s
  | some s, some t => some (Array.zipWith (· + ·) s t)

/-- The chain rule : a value, and derivatives changed one by one. -/
def chain (value : α) (rule : α → α) (x : Jet α) : Jet α :=
  ⟨value, x.slopes.map (·.map rule)⟩

/-- The chain rule for two arguments. -/
def chain₂ [Add α] (value : α) (rule₁ rule₂ : α → α) (x y : Jet α) : Jet α :=
  ⟨value, addSlopes (x.slopes.map (·.map rule₁)) (y.slopes.map (·.map rule₂))⟩

/-- Two numbers are equal. -/
def equal [Scalar α] (x y : α) : Bool :=
  Scalar.le x y && Scalar.le y x

/-- The part of a maximum's derivative that goes to an argument `x`, where `z` is the
maximum and `y` the other argument. -/
def share [Scalar α] (x y z : α) : α :=
  (if equal x z then 1 else 0) / (if equal y z then 1 + 1 else 1)

/-- The sign of a number : zero for zero, and minus one for all that is not positive. -/
def sign [Scalar α] (x : α) : α :=
  if Scalar.lt 0 x then 1 else if equal x 0 then 0 else -1

/-- The derivatives of a value, zero for a constant. -/
def slopesOf [Zero α] (n : Nat) (x : Jet α) : Array α :=
  x.slopes.getD (Array.replicate n 0)

/-- The slope rule of an integer power. -/
def powerRule [Elementary α] (x : α) (k : Int) (g : α) : α :=
  if k = 0 then 0
  else g * (Elementary.ofFloat (Float.ofInt k) * Elementary.power x (k - 1))

/-- The slope rule of the denominator `y` of a quotient. -/
def denominatorRule [Elementary α] (x y g : α) : α :=
  -g * x * Elementary.power y (-2)

/-- The jet with its derivatives in the kind of its value. -/
def settled [Elementary α] (value : α) (x : Jet α) : Jet α :=
  chain value (fun g => (Elementary.matched value g).2) x

/-- Two jets, brought to one kind. -/
def matched [Elementary α] (x y : Jet α) : Jet α × Jet α :=
  let (a, b) := Elementary.matched x.value y.value
  (settled a x, settled b y)

/-- A function of two jets that are brought to one kind first. -/
def onMatched [Elementary α] (f : Jet α → Jet α → Jet α) (x y : Jet α) : Jet α :=
  let (x, y) := matched x y
  f x y

/-- The quotient of two jets of one kind. -/
def quotient [Elementary α] (x y : Jet α) : Jet α :=
  chain₂ (x.value / y.value) (· / y.value) (denominatorRule x.value y.value) x y

/-- The maximum of two jets of one kind. -/
def maximum [Elementary α] (x y : Jet α) : Jet α :=
  let z := Scalar.max x.value y.value
  chain₂ z (· * share x.value y.value z) (· * share y.value x.value z) x y

/-- The choice between two values of one kind; where either has derivatives the result
has. -/
def chosen [Elementary α] (c : Jet α) (x y : Jet α) : Jet α :=
  let count := (x.slopes.map (·.size)).or (y.slopes.map (·.size))
  { value := Elementary.choose c.value x.value y.value
    slopes := count.map fun n =>
      Array.zipWith (Elementary.choose c.value) (x.slopesOf n) (y.slopesOf n) }

/-- Why a jet is none : its value is not, or some derivative. -/
def refusal? [Elementary α] (x : Jet α) : Option Refusal :=
  (Elementary.refusal? x.value).or
    (x.slopes.bind fun gs => gs.findSome? Elementary.refusal?)

/-- The jets of one array, brought to one kind. -/
def alike [Elementary α] (xs : Array (Jet α)) : Array (Jet α) :=
  Array.zipWith settled (Elementary.alike (xs.map (·.value))) xs

end Jet

instance {α : Type} [Inhabited α] : Inhabited (Jet α) := ⟨.constant default⟩

open Jet in
/-- Jets as scalars. Comparisons look at the values. -/
instance {α : Type} [Elementary α] : Scalar (Jet α) where
  zero := constant Zero.zero
  one := constant One.one
  add := onMatched fun x y => chain₂ (x.value + y.value) id id x y
  sub := onMatched fun x y => chain₂ (x.value - y.value) id (- ·) x y
  mul := onMatched fun x y => chain₂ (x.value * y.value) (· * y.value) (x.value * ·) x y
  div := onMatched quotient
  neg x := chain (-x.value) (- ·) x
  abs x := chain (Scalar.abs x.value) (· * sign x.value) x
  sqrt x :=
    let r := Scalar.sqrt x.value
    chain r (· * (Elementary.ofFloat 0.5 / r)) x
  max := onMatched maximum
  lt x y := Scalar.lt x.value y.value
  le x y := Scalar.le x.value y.value
  isFinite x := Scalar.isFinite x.value
  eps := constant Scalar.eps
  ofNat n := constant (Scalar.ofNat n)

open Jet in
/-- Forward differentiation of the elementary functions. -/
instance {α : Type} [Elementary α] : Elementary (Jet α) where
  ofFloat x := constant (Elementary.ofFloat x)
  ofInt i := constant (Elementary.ofInt i)
  exp x :=
    let r := Elementary.exp x.value
    chain r (· * r) x
  log x := chain (Elementary.log x.value) (· / x.value) x
  sin x := chain (Elementary.sin x.value) (· * Elementary.cos x.value) x
  cos x := chain (Elementary.cos x.value) (fun g => -(g * Elementary.sin x.value)) x
  tanh x :=
    let r := Elementary.tanh x.value
    chain r (fun g => (g + g * r) * (Elementary.ofFloat 1 - r)) x
  power x k := chain (Elementary.power x.value k) (powerRule x.value k) x
  positive? c := Elementary.positive? c.value
  choose c := onMatched (chosen c)
  matched := matched
  alike := alike
  refusal? := refusal?

end Stationary
