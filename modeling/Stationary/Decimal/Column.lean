import Stationary.Decimal.Layout

/-!
# Columns of numbers

The numbers of an array are written in texts of one width and one form, so that they can
stand below each other. At most eight digits stand behind the point, and no zeros that all
numbers of the array end in.

The form is that with an exponent if some magnitude is not below `10⁸`, some is below
`10⁻⁴`, or they span more than three decades (`needsExponents`); zeros and numbers that are
not finite do not count. With an exponent all numbers have as many digits behind the point,
without one they are filled up with blanks.
-/

namespace Stationary.Decimal

/-- The greatest number of digits behind a point. -/
def columnPlaces : Nat := 8

/-- The exact value of a number, rounded to a number of digits behind the point, without
the zeros at the end. -/
def roundedToPlaces (places m : Nat) (e : Int) : Digits :=
  let k := ((Ratio.ofBinary m e).dividePow10 (-(places : Int))).round
  (Digits.ofNat k (-(places : Int))).trim

/-- The shortest digits of a number with at most so many digits behind the point, or else
the rounded ones. -/
def shortToPlaces (places m : Nat) (e : Int) : Digits :=
  let d := shortest m e
  if (d.digits.length : Int) - 1 - d.exponent ≤ places then d else roundedToPlaces places m e

/-- The shortest digits of a number, at most one more than so many, or else the rounded
ones. -/
def shortToDigits (places m : Nat) (e : Int) : Digits :=
  let d := shortest m e
  if d.digits.length ≤ places + 1 then d else (rounded (places + 1) m e).trim

/-- A number in two parts, with its sign in front, and an exponent. -/
structure Parted where
  whole : List Char
  fraction : List Char
  exponent : Int

/-- A number without an exponent. -/
def partedPositional (negative : Bool) (m : Nat) (e : Int) : Parted :=
  let text := if m = 0 then ['0'] else positional (shortToPlaces columnPlaces m e)
  let whole := text.takeWhile (· != '.')
  { whole := if negative then '-' :: whole else whole
    fraction := text.drop (whole.length + 1)
    exponent := 0 }

/-- A number with an exponent. -/
def partedScientific (negative : Bool) (m : Nat) (e : Int) : Parted :=
  let d := if m = 0 then ⟨['0'], 0⟩ else shortToDigits columnPlaces m e
  { whole := if negative then '-' :: d.digits.take 1 else d.digits.take 1
    fraction := d.digits.drop 1
    exponent := d.exponent }

/-- The numbers are written with exponents. -/
def needsExponents (xs : List Float) : Bool :=
  let sizes := (xs.filter fun x => x.isFinite && !(x == 0)).map Float.abs
  match sizes with
  | [] => false
  | x :: rest =>
    let greatest := rest.foldl (fun a b => if a < b then b else a) x
    let least := rest.foldl (fun a b => if b < a then b else a) x
    1e8 ≤ greatest || least < 1e-4 || 1000 < greatest / least

/-- The parts of a finite number. -/
def parted? (scientific : Bool) (x : Float) : Option Parted :=
  match parts x with
  | .finite negative m e =>
    some (if scientific then partedScientific negative m e else partedPositional negative m e)
  | _ => none

/-- The widths in a column of numbers. -/
structure ColumnWidths where
  whole : Nat
  fraction : Nat
  exponent : Nat

/-- The greatest number of a list. -/
def greatestOf (ns : List Nat) : Nat :=
  ns.foldl max 0

/-- The width of a column without its part in front of the point. -/
def ColumnWidths.behind (w : ColumnWidths) : Nat :=
  1 + w.fraction + (if w.exponent = 0 then 0 else w.exponent + 2)

/-- The widths that some numbers need. -/
def columnWidths (scientific : Bool) (xs : List Float) : ColumnWidths :=
  let ps := xs.filterMap (parted? scientific)
  let finite : ColumnWidths :=
    { whole := greatestOf (ps.map fun p => p.whole.length)
      fraction := greatestOf (ps.map fun p => p.fraction.length)
      exponent :=
        if scientific then
          greatestOf (ps.map fun p => (paddedDigits 2 p.exponent.natAbs).length)
        else 0 }
  if xs.all Float.isFinite then finite
  else
    let longest := if xs.any fun x => x.isInf && x < 0 then 4 else 3
    { finite with whole := max finite.whole (longest - finite.behind) }

/-- Blanks in front of a text, up to a width. -/
def padLeft (width : Nat) (cs : List Char) : List Char :=
  List.replicate (width - cs.length) ' ' ++ cs

/-- A finite number of a column. -/
def columnEntry (w : ColumnWidths) (p : Parted) : List Char :=
  let filled := p.fraction.length
  if w.exponent = 0 then
    padLeft w.whole p.whole ++ '.' :: p.fraction ++ List.replicate (w.fraction - filled) ' '
  else
    padLeft w.whole p.whole ++ '.' :: p.fraction ++ List.replicate (w.fraction - filled) '0' ++
      'e' :: (if p.exponent < 0 then '-' else '+') :: paddedDigits w.exponent p.exponent.natAbs

/-- A number that is not finite. -/
def columnName (x : Float) : List Char :=
  if x.isNaN then ['n', 'a', 'n']
  else if x < 0 then ['-', 'i', 'n', 'f']
  else ['i', 'n', 'f']

/-- The texts of the numbers of an array. -/
def column (xs : List Float) : List String :=
  let scientific := needsExponents xs
  let w := columnWidths scientific xs
  xs.map fun x =>
    String.ofList <|
      match parted? scientific x with
      | some p => columnEntry w p
      | none => padLeft (w.whole + w.behind) (columnName x)

/-- The texts of the integers of an array, which have one width. -/
def wholeColumn (is : List Int) : List String :=
  let texts := is.map fun i => (toString i).toList
  let width := greatestOf (texts.map List.length)
  texts.map fun cs => String.ofList (padLeft width cs)

end Stationary.Decimal
