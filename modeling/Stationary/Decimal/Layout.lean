import Stationary.Decimal.Shortest
import Stationary.Decimal.Rounded

/-!
# How numbers are written

Three layouts of binary64 numbers :

* `plain` : the shortest digits that read back, with a point and at least one digit
  behind it, positional from `10⁻⁴` up to below `10¹⁶`, with an exponent outside;
* `scientific` : one digit, a point and a fixed number of digits, always with an exponent;
* `general` : at most so many significant digits, without zeros at the end, positional
  from `10⁻⁴` up to that many digits.

Exponents have a sign and at least two digits; undefined and infinite numbers are
written `nan`, `inf` and `-inf`.
-/

namespace Stationary.Decimal

/-- An exponent, with sign and at least two digits. -/
def exponentText (e : Int) : List Char :=
  'e' :: (if e < 0 then '-' else '+') :: paddedDigits 2 e.natAbs

/-- The digits with a point behind the first one, if there are more. -/
def pointed : List Char → List Char
  | [] => []
  | [d] => [d]
  | d :: ds => d :: '.' :: ds

/-- Digits and exponent. -/
def exponential (d : Digits) : List Char :=
  pointed d.digits ++ exponentText d.exponent

/-- Digits without an exponent; the point is left out where nothing follows it. -/
def positional (d : Digits) : List Char :=
  if d.exponent < 0 then
    '0' :: '.' :: (List.replicate (d.exponent.natAbs - 1) '0' ++ d.digits)
  else
    let whole := d.exponent.toNat + 1
    let padded := d.digits ++ List.replicate (whole - d.digits.length) '0'
    match padded.drop whole with
    | [] => padded
    | fraction => padded.take whole ++ '.' :: fraction

/-- Positional digits with at least one digit behind the point. -/
def positionalWithPoint (d : Digits) : List Char :=
  if d.exponent < 0 || d.exponent.toNat + 1 < d.digits.length then positional d
  else positional d ++ ['.', '0']

/-- The text of a number : a sign where it is negative, and its magnitude laid out, with
a layout of zero of its own. -/
def layOut (zero : List Char) (positive : Nat → Int → List Char) (x : Float) : String :=
  match parts x with
  | .undefined => "nan"
  | .infinite negative => if negative then "-inf" else "inf"
  | .finite negative m e =>
    let body := if m = 0 then zero else positive m e
    String.ofList (if negative then '-' :: body else body)

/-- The shortest text that reads back as the number. -/
def plain : Float → String :=
  layOut ['0', '.', '0'] fun m e =>
    let d := shortest m e
    if -4 ≤ d.exponent ∧ d.exponent < 16 then positionalWithPoint d else exponential d

/-- The number with `places` digits behind the point and an exponent. -/
def scientific (places : Nat) : Float → String :=
  layOut (pointed (List.replicate (places + 1) '0') ++ exponentText 0) fun m e =>
    exponential (rounded (places + 1) m e)

/-- The number with at most `count` significant digits. -/
def general (count : Nat) : Float → String :=
  layOut ['0'] fun m e =>
    let d := rounded count m e
    if -4 ≤ d.exponent ∧ d.exponent < (count : Nat) then positional d.trim
    else exponential d.trim

end Stationary.Decimal
