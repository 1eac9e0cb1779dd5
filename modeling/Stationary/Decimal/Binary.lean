/-!
# Binary64 numbers as exact fractions

A finite binary64 number is `± mantissa · 2 ^ exponent` with natural `mantissa`. `Parts`
is that reading of the bits; everything that is written in decimal is computed from it
in exact natural arithmetic. `Ratio` is a positive fraction, on which powers of ten are
found (`Ratio.decade`) and quotients rounded to the nearest integer with ties to the
even one (`Ratio.round`).
-/

namespace Stationary.Decimal

/-- What the bits of a binary64 number say. -/
inductive Parts
  | undefined
  | infinite (negative : Bool)
  | finite (negative : Bool) (mantissa : Nat) (exponent : Int)

/-- Number of fraction bits of binary64. -/
def fractionBits : Nat := 52

/-- The exponent of the smallest positive number. -/
def leastExponent : Int := -1074

/-- A power of two. -/
def pow2 (k : Nat) : Nat := Nat.pow 2 k

/-- A power of ten. -/
def pow10 (k : Nat) : Nat := Nat.pow 10 k

/-- The parts of a number given by its bits. -/
def partsOfBits (bits : Nat) : Parts :=
  let negative := bits.testBit 63
  let biased := bits / pow2 fractionBits % 2048
  let fraction := bits % pow2 fractionBits
  if biased = 2047 then
    if fraction = 0 then .infinite negative else .undefined
  else if biased = 0 then .finite negative fraction leastExponent
  else .finite negative (pow2 fractionBits + fraction) (leastExponent + (biased - 1 : Nat))

/-- The parts of a number. -/
def parts (x : Float) : Parts :=
  partsOfBits x.toBits.toNat

/-- A fraction of natural numbers; the denominator is meant to be positive. -/
structure Ratio where
  num : Nat
  den : Nat

namespace Ratio

/-- The value `m · 2 ^ e`. -/
def ofBinary (m : Nat) (e : Int) : Ratio :=
  if 0 ≤ e then ⟨m * pow2 e.toNat, 1⟩ else ⟨m, pow2 (-e).toNat⟩

/-- The fraction divided by `10 ^ p`. -/
def dividePow10 (r : Ratio) (p : Int) : Ratio :=
  if 0 ≤ p then ⟨r.num, r.den * pow10 p.toNat⟩ else ⟨r.num * pow10 (-p).toNat, r.den⟩

/-- The fraction is at least `10 ^ p`. -/
def reachesPow10 (r : Ratio) (p : Int) : Bool :=
  let q := r.dividePow10 p
  q.den ≤ q.num

/-- The decimal exponent `p` with `10 ^ p ≤ r < 10 ^ (p + 1)`, for a positive fraction :
the binary exponents give it up to one. -/
def decade (r : Ratio) : Int :=
  let guess := ((r.num.log2 : Int) - (r.den.log2 : Int)) * 30103 / 100000
  if r.reachesPow10 (guess + 1) then guess + 1
  else if r.reachesPow10 guess then guess else guess - 1

/-- The integer below the fraction. -/
def floor (r : Ratio) : Nat :=
  r.num / r.den

/-- The nearest integer; of two, the even one. -/
def round (r : Ratio) : Nat :=
  let q := r.num / r.den
  let twice := 2 * (r.num % r.den)
  if twice < r.den then q
  else if r.den < twice then q + 1
  else if q % 2 = 0 then q else q + 1

end Ratio

/-- A decimal number `d.ddd… · 10 ^ exponent` by its digits, the first of which is not
zero unless the number is. -/
structure Digits where
  digits : List Char
  exponent : Int

/-- The decimal digits of a natural number, padded with zeros on the left. -/
def paddedDigits (width n : Nat) : List Char :=
  let ds := Nat.toDigits 10 n
  List.replicate (width - ds.length) '0' ++ ds

/-- The digits of `n · 10 ^ e`, for positive `n`. -/
def Digits.ofNat (n : Nat) (e : Int) : Digits :=
  let ds := Nat.toDigits 10 n
  ⟨ds, e + (ds.length - 1 : Nat)⟩

/-- The digits without the zeros at the end; a first digit always stays. -/
def Digits.trim (d : Digits) : Digits :=
  match d.digits with
  | [] => d
  | first :: rest => ⟨first :: (rest.reverse.dropWhile (· == '0')).reverse, d.exponent⟩

end Stationary.Decimal
