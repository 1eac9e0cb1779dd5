import Stationary.Decimal.Binary

/-!
# Integer formats

An integer format has a number of bits and may have a sign. `WholeFormat.wrap` keeps the
low bits of an integer, which is what arithmetic of the format does with a result that is
too large; `WholeFormat.wrap_wrap` says that once is enough. `WholeFormat.truncate` is the
other way into a format : a binary64 number loses its fraction, and one beyond the ends
becomes the end.
-/

namespace Stationary

/-- The integers of `width` bits, with or without a sign. -/
structure WholeFormat where
  signed : Bool
  width : Nat
  deriving DecidableEq

namespace WholeFormat

/-- The format that integers have where no other is asked for. -/
def int64 : WholeFormat := ⟨true, 64⟩

/-- The format that truth values have where integers are asked for. -/
def int32 : WholeFormat := ⟨true, 32⟩

/-- The smallest format that holds the integers of two, if there is one. -/
def join? (f g : WholeFormat) : Option WholeFormat :=
  if f.signed = g.signed then some ⟨f.signed, max f.width g.width⟩
  else
    let signed := if f.signed then f.width else g.width
    let unsigned := if f.signed then g.width else f.width
    if unsigned < signed then some ⟨true, signed⟩
    else if unsigned < int64.width then some ⟨true, 2 * unsigned⟩
    else none

/-- The order of two formats does not matter for the one that holds both. -/
theorem join?_comm (f g : WholeFormat) : f.join? g = g.join? f := by
  rcases f with ⟨_ | _, m⟩ <;> rcases g with ⟨_ | _, n⟩ <;> simp [join?, Nat.max_comm]

theorem join?_self (f : WholeFormat) : f.join? f = some f := by
  simp [join?]

/-- The integer of the format with the same low bits. -/
def wrap (f : WholeFormat) (i : Int) : Int :=
  if f.signed then (BitVec.ofInt f.width i).toInt else (BitVec.ofInt f.width i).toNat

theorem wrap_wrap (f : WholeFormat) (i : Int) : f.wrap (f.wrap i) = f.wrap i := by
  unfold wrap
  split
  · rw [BitVec.ofInt_toInt]
  · rw [BitVec.ofInt_natCast, BitVec.ofNat_toNat, BitVec.setWidth_eq]

/-- The power of an integer, computed in the format. -/
def power (f : WholeFormat) (i : Int) (k : Nat) : Int :=
  if k = 0 then f.wrap 1
  else
    let half := f.power (f.wrap (i * i)) (k / 2)
    if k % 2 = 1 then f.wrap (i * half) else half
termination_by k

/-- The integer belongs to the format. -/
def holds (f : WholeFormat) (i : Int) : Bool :=
  f.wrap i = i

/-- The number of integers of the format. -/
def count (f : WholeFormat) : Int :=
  (BitVec.allOnes f.width).toNat + 1

/-- The largest integer of the format. -/
def greatest (f : WholeFormat) : Int :=
  if f.signed then f.count / 2 - 1 else f.count - 1

/-- The smallest integer of the format. -/
def least (f : WholeFormat) : Int :=
  f.greatest + 1 - f.count

/-- The name of the format. -/
def name (f : WholeFormat) : String :=
  (if f.signed then "int" else "uint") ++ toString f.width

/-- The formats there are. -/
def all : List WholeFormat :=
  [true, false].flatMap fun signed => [8, 16, 32, 64].map fun width => ⟨signed, width⟩

/-- The format of a name. -/
def ofName? (s : String) : Option WholeFormat :=
  all.find? fun f => f.name = s

end WholeFormat

/-- The integer that is left of a finite number without its fraction. -/
def integerPart (negative : Bool) (m : Nat) (e : Int) : Int :=
  let magnitude : Int := (Decimal.Ratio.ofBinary m e).floor
  if negative then -magnitude else magnitude

/-- The integer of a format nearest to a binary64 number without its fraction; zero if the
number is undefined. -/
def WholeFormat.truncate (f : WholeFormat) (x : Float) : Int :=
  match Decimal.parts x with
  | .undefined => 0
  | .infinite negative => if negative then f.least else f.greatest
  | .finite negative m e => min f.greatest (max f.least (integerPart negative m e))

end Stationary
