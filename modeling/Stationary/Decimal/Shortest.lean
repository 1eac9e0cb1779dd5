import Stationary.Decimal.Binary

/-!
# The shortest decimal that reads back

`shortest` finds, for a positive binary64 number, the decimal with the fewest digits
among those that are read back as the number, and of these the nearest. The reals that
are read as `m · 2 ^ e` form an interval around it, closed exactly if `m` is even
(`Neighbourhood`). For each number of digits the two neighbours of the value on that
decimal grid are tested : if a point of the grid is in the interval, so is one of them.
-/

namespace Stationary.Decimal

/-- The reals that are read as a given number, in units of `2 ^ (exponent - 2)`. -/
structure Neighbourhood where
  low : Nat
  value : Nat
  high : Nat
  closed : Bool
  exponent : Int

/-- The neighbourhood of `m · 2 ^ e`; below a power of two the gap is half as wide. -/
def neighbourhood (m : Nat) (e : Int) : Neighbourhood :=
  { low := if m = pow2 fractionBits ∧ e ≠ leastExponent then 4 * m - 1 else 4 * m - 2
    value := 4 * m
    high := 4 * m + 2
    closed := m % 2 = 0
    exponent := e - 2 }

/-- The grid point `k · 10 ^ p` lies in the neighbourhood. -/
def Neighbourhood.holds (b : Neighbourhood) (k : Nat) (p : Int) : Bool :=
  let low := (Ratio.ofBinary b.low b.exponent).dividePow10 p
  let high := (Ratio.ofBinary b.high b.exponent).dividePow10 p
  if b.closed then low.num ≤ k * low.den && k * high.den ≤ high.num
  else low.num < k * low.den && k * high.den < high.num

/-- The grid point of `10 ^ p` nearest to the number that is read back as it. -/
def Neighbourhood.nearest? (b : Neighbourhood) (p : Int) : Option Nat :=
  let v := (Ratio.ofBinary b.value b.exponent).dividePow10 p
  let k := v.floor
  match b.holds k p, b.holds (k + 1) p with
  | true, true => some v.round
  | true, false => some k
  | false, true => some (k + 1)
  | false, false => none

/-- The first grid, of `count` more and more digits, with a point that is read back. -/
def Neighbourhood.search (b : Neighbourhood) (decade : Int) : Nat → Nat → Option Digits
  | _, 0 => none
  | count, fuel + 1 =>
    let p := decade - (count : Nat) + 1
    match b.nearest? p with
    | some k => some (Digits.ofNat k p).trim
    | none => b.search decade (count + 1) fuel

/-- The shortest decimal that reads back as `m · 2 ^ e`, for positive `m`. Seventeen
digits are always enough. -/
def shortest (m : Nat) (e : Int) : Digits :=
  let b := neighbourhood m e
  let v := Ratio.ofBinary m e
  match b.search v.decade 1 17 with
  | some d => d
  | none => (Digits.ofNat (v.dividePow10 (v.decade - 16)).round (v.decade - 16)).trim

end Stationary.Decimal
