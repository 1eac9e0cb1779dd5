import Stationary.Literal
import Stationary.Setting
import Stationary.Tensor

/-!
# Numbers in nested lists

A starting point, like every array, is given as a setting : a number, or lists of numbers
nested to any depth up to sixty-four. `nestedNumbers` turns it into a tensor of literals;
all lists on one level must have the same shape. `startTensor` is the tensor of a starting
point, where integers alone must fit into 64 bits, and integers beside other numbers into
binary64. `arraySetting` is an array that stays a setting, and may hold more than numbers.
-/

namespace Stationary

/-- Why a setting is no array of numbers. -/
inductive ArrayError
  /-- A number is left out. -/
  | missing
  | notNumeric
  | ragged
  /-- Lists are nested too deeply. -/
  | tooManyAxes
  /-- An integer does not fit into the format. -/
  | tooLarge
  /-- An undefined number among integers. -/
  | undefinedInteger
  /-- A shape has another number of entries. -/
  | otherShape
  deriving DecidableEq

/-- The greatest number of axes of an array. -/
def greatestRank : Nat := 64

namespace Setting

mutual

/-- The numbers of a setting are missing somewhere. -/
def lacksNumber : Setting → Bool
  | .nothing => true
  | .list items => anyLacksNumber items
  | .tuple items => anyLacksNumber items
  | _ => false

/-- The numbers of some setting are missing somewhere. -/
def anyLacksNumber : List Setting → Bool
  | [] => false
  | item :: items => lacksNumber item || anyLacksNumber items

end

mutual

/-- A setting has something else than numbers in its lists. -/
def holdsOther : Setting → Bool
  | .nothing => false
  | .truth _ => false
  | .int _ => false
  | .float _ => false
  | .list items => anyHoldsOther items
  | .tuple items => anyHoldsOther items
  | _ => true

/-- Some setting has something else than numbers in its lists. -/
def anyHoldsOther : List Setting → Bool
  | [] => false
  | item :: items => holdsOther item || anyHoldsOther items

end

mutual

/-- The numbers of a setting; there are none if it is ragged. -/
def numbers? : Setting → Option (Tensor Literal)
  | .truth b => some (.scalar (.whole (if b then 1 else 0)))
  | .int i => some (.scalar (.whole i))
  | .float x => some (.scalar (.float x))
  | .list items => (allNumbers? items).bind Tensor.stack?
  | .tuple items => (allNumbers? items).bind Tensor.stack?
  | _ => none

/-- The numbers of several settings. -/
def allNumbers? : List Setting → Option (List (Tensor Literal))
  | [] => some []
  | item :: items =>
    match numbers? item, allNumbers? items with
    | some t, some ts => some (t :: ts)
    | _, _ => none

end

end Setting

/-- The numbers of nested lists. -/
def nestedNumbers (s : Setting) : Except ArrayError (Tensor Literal) :=
  if s.lacksNumber then .error .missing
  else if s.holdsOther then .error .notNumeric
  else
    match s.numbers? with
    | none => .error .ragged
    | some t => if greatestRank < t.shape.length then .error .tooManyAxes else .ok t

/-- Some number is not an integer. -/
def hasFloat (t : Tensor Literal) : Bool :=
  t.entries.any fun | .float _ => true | .whole _ => false

/-- All integers pass a test. -/
def allWhole (test : Int → Bool) (t : Tensor Literal) : Bool :=
  t.entries.all fun | .whole i => test i | .float _ => true

/-- The starting point of a setting. -/
def startTensor (s : Setting) : Except ArrayError (Tensor Float) :=
  match nestedNumbers s with
  | .error e => .error e
  | .ok t =>
    if allWhole (if hasFloat t then fitsBinary64 else fitsInt64) t then .ok (t.map Literal.toFloat)
    else .error .tooLarge

/-! ## Arrays that stay settings -/

namespace Setting

mutual

/-- Nested lists with every entry changed. -/
def mapLeaves (f : Setting → Setting) : Setting → Setting
  | .list items => .list (mapAllLeaves f items)
  | other => f other

/-- Several nested lists with every entry changed. -/
def mapAllLeaves (f : Setting → Setting) : List Setting → List Setting
  | [] => []
  | item :: items => mapLeaves f item :: mapAllLeaves f items

end

/-- The binary64 number that a number or a truth value equals. -/
def asFloat : Setting → Setting
  | .truth b => .float (if b then 1.0 else 0.0)
  | .int i => .float (Float.ofInt i)
  | other => other

/-- The integer that a truth value equals. -/
def asInt : Setting → Setting
  | .truth b => .int (if b then 1 else 0)
  | other => other

/-- The text of a number. -/
def asText : Setting → Setting
  | .text s => .text s
  | other => .text other.shown

/-- The integer has 64 bits with a sign, or without. -/
def isMachineInt (i : Int) : Bool :=
  WholeFormat.int64.holds i || (⟨false, 64⟩ : WholeFormat).holds i

/-- The kind of the entries of an array of one value. -/
def entryKind : Setting → EntryKind
  | .truth _ => .truths
  | .int i =>
    if WholeFormat.int64.holds i then .int64
    else if isMachineInt i then .uint64
    else .anything
  | .float _ => .float64
  | .text s => .texts (max 1 s.length)
  | _ => .anything

end Setting

/-- The number of characters that are set aside for a value of a kind among texts. -/
def EntryKind.textWidth : EntryKind → Nat
  | truths => 5
  | int64 => 21
  | uint64 => 20
  | float64 => 32
  | texts width => width
  | anything => 0

/-- The kind of entries of two kinds : the widest, where texts are wider than numbers. -/
def EntryKind.join : EntryKind → EntryKind → EntryKind
  | anything, _ => anything
  | _, anything => anything
  | texts m, k => texts (max m k.textWidth)
  | k, texts m => texts (max m k.textWidth)
  | truths, k => k
  | k, truths => k
  | int64, int64 => int64
  | uint64, uint64 => uint64
  | _, _ => float64

/-- The order of two kinds of entries does not matter. -/
theorem EntryKind.join_comm (j k : EntryKind) : j.join k = k.join j := by
  cases j <;> cases k <;> simp [join, textWidth, Nat.max_comm]

namespace Setting

/-- The kind of the entries of an array. -/
def entriesKind (s : Setting) : EntryKind :=
  match s.leaves with
  | [] => .float64
  | x :: xs => xs.foldl (fun k y => k.join y.entryKind) x.entryKind

/-- The entries of an array, in its kind. -/
def inEntries (k : EntryKind) (s : Setting) : Setting :=
  match k with
  | .truths => s
  | .int64 => s.mapLeaves asInt
  | .uint64 => s.mapLeaves asInt
  | .float64 => s.mapLeaves asFloat
  | .texts _ => s.mapLeaves asText
  | .anything => s

/-- The kind of the entries of an array of numbers on a device. -/
def deviceKind (s : Setting) : EntryKind :=
  if s.leaves.any fun x => x.entryKind = .float64 then .float64 else s.entriesKind

end Setting

/-- The array that nested lists make. On a device it holds numbers only, on the host it may
hold anything of one shape. -/
def arraySetting (home : ArrayHome) (s : Setting) : Except ArrayError Setting := do
  match home with
  | .host =>
    let _ ← nestedNumbers (s.mapLeaves fun _ => .int 0)
    .ok (.array .host s.entriesKind (s.inEntries s.entriesKind))
  | .device =>
    let _ ← startTensor s
    .ok (.array .device s.deviceKind (s.inEntries s.deviceKind))

end Stationary
