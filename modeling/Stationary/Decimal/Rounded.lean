import Stationary.Decimal.Binary

/-!
# Decimals with a fixed number of significant digits

`rounded` gives the `count` significant digits of a positive binary64 number, rounded
on its exact value with ties to the even digit.
-/

namespace Stationary.Decimal

/-- The value of `m · 2 ^ e`, for positive `m`, rounded to `count` significant digits. -/
def rounded (count m : Nat) (e : Int) : Digits :=
  let v := Ratio.ofBinary m e
  let p := v.decade - (count : Nat) + 1
  let k := (v.dividePow10 p).round
  if k < pow10 count then ⟨paddedDigits count k, v.decade⟩
  else ⟨paddedDigits count (k / 10), v.decade + 1⟩

end Stationary.Decimal
