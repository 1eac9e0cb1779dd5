import Stationary.Decimal.Binary
import Stationary.Text.Classes

/-!
# Reading numbers

The text of a number may have blanks around it; digits may be decimal digits of any
script, and a single underscore may stand between two digits. `readFloat?` reads a sign,
digits with at most one point and an exponent, or one of the names of infinity and of
the undefined number in any case; `readInt?` reads a sign and digits.

A text of ASCII characters alone is trimmed of ASCII spaces only; in any other text the
blanks outside ASCII count as spaces too. Both are what `normalize` leaves.
-/

namespace Stationary.Decimal

open Stationary.Text

/-- A character with wide blanks made spaces and digits of any script made ASCII; what is
neither, and not ASCII, becomes a question mark, which no number holds. -/
def normalizeChar (c : Char) : Char :=
  if c.toNat < 127 then c
  else if isWideSpace c then ' '
  else
    match digitValue? c with
    | some d => Char.ofNat (48 + d)
    | none => '?'

/-- The text in ASCII, without the spaces around it. -/
def normalize (s : List Char) : List Char :=
  let cs := (s.map normalizeChar).dropWhile isAsciiSpace
  (cs.reverse.dropWhile isAsciiSpace).reverse

/-- The text without underscores, each of which must stand between two digits. -/
def dropUnderscores : Option Char → List Char → Option (List Char)
  | _, [] => some []
  | previous, c :: cs =>
    if c = '_' then
      match previous, cs with
      | some p, d :: _ =>
        if p.isDigit && d.isDigit then dropUnderscores (some c) cs else none
      | _, _ => none
    else (dropUnderscores (some c) cs).map (c :: ·)

/-- The value of a run of ASCII digits. -/
def digitsValue (ds : List Char) : Nat :=
  ds.foldl (fun n d => 10 * n + (d.toNat - 48)) 0

/-- A sign, if there is one, and the rest. -/
def splitSign : List Char → Bool × List Char
  | '-' :: cs => (true, cs)
  | '+' :: cs => (false, cs)
  | cs => (false, cs)

/-- The text of a number taken apart. -/
inductive Numeral
  | undefined
  | infinite (negative : Bool)
  | decimal (negative : Bool) (mantissa : Nat) (exponent : Int)

/-- An exponent, or nothing. -/
def readExponent? : List Char → Option Int
  | [] => some 0
  | c :: cs =>
    if c = 'e' || c = 'E' then
      let (negative, ds) := splitSign cs
      if ds.isEmpty || !ds.all Char.isDigit then none
      else some (if negative then -(digitsValue ds : Int) else digitsValue ds)
    else none

/-- Digits with at most one point among them, and an exponent. -/
def readDecimal? (negative : Bool) (cs : List Char) : Option Numeral :=
  let whole := cs.takeWhile Char.isDigit
  let rest := cs.dropWhile Char.isDigit
  let (fraction, rest) :=
    match rest with
    | '.' :: more => (more.takeWhile Char.isDigit, more.dropWhile Char.isDigit)
    | _ => ([], rest)
  if whole.isEmpty && fraction.isEmpty then none
  else
    (readExponent? rest).map fun e =>
      .decimal negative (digitsValue (whole ++ fraction)) (e - (fraction.length : Nat))

/-- The text of a number, already in ASCII and trimmed. -/
def readNumeral? (cs : List Char) : Option Numeral :=
  match dropUnderscores none cs with
  | none => none
  | some cs =>
    let (negative, body) := splitSign cs
    let lower := String.ofList (body.map Char.toLower)
    if lower = "inf" || lower = "infinity" then some (.infinite negative)
    else if lower = "nan" then some .undefined
    else readDecimal? negative body

/-- The nearest binary64 number. Magnitudes from `10⁴⁰⁰` up are infinite and those below
`10⁻⁴⁰⁰` are zero, so that no power beyond these is ever formed. -/
def Numeral.toFloat : Numeral → Float
  | .undefined => 0.0 / 0.0
  | .infinite negative => if negative then -(1.0 / 0.0) else 1.0 / 0.0
  | .decimal negative m e =>
    let size : Int := e + (Nat.toDigits 10 m).length
    let magnitude :=
      if m = 0 || size < -400 then 0.0
      else if 400 < size then 1.0 / 0.0
      else if 0 ≤ e then Float.ofScientific (m * pow10 e.toNat) false 0
      else Float.ofScientific m true (-e).toNat
    if negative then -magnitude else magnitude

/-- The number of a text. -/
def readFloat? (s : List Char) : Option Float :=
  (readNumeral? (normalize s)).map Numeral.toFloat

/-- The number of digits up to which the text of an integer is read. -/
def longestInteger : Nat := 4300

/-- The integer of a text. -/
def readInt? (s : List Char) : Option Int :=
  match dropUnderscores none (normalize s) with
  | none => none
  | some cs =>
    let (negative, ds) := splitSign cs
    if ds.isEmpty || !ds.all Char.isDigit || longestInteger < ds.length then none
    else some (if negative then -(digitsValue ds : Int) else digitsValue ds)

end Stationary.Decimal
