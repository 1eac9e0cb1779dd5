import Stationary.Mixed
import Stationary.Nested

/-!
# Arrays of numbers

A `NumericArray` is a tensor with the format of its numbers : one of the two binary
formats, a format of integers, or truth values. `NumericArray.ofSetting` reads an array of
a format from nested lists : numbers are rounded to a binary format, lose their fraction
in an integer format, which must hold what is left, and are asked whether they are zero
for a truth value.
-/

namespace Stationary

/-- The format of the numbers of an array. -/
inductive NumberFormat
  | binary64
  | binary32
  | whole (f : WholeFormat)
  | truth
  deriving DecidableEq

namespace NumberFormat

/-- The name of a format. -/
def name : NumberFormat → String
  | binary64 => FloatFormat.name Float
  | binary32 => FloatFormat.name Float32
  | whole f => f.name
  | truth => "bool"

/-- The format of a name. -/
def ofName? (s : String) : Option NumberFormat :=
  if s = binary64.name then some binary64
  else if s = binary32.name then some binary32
  else if s = truth.name then some truth
  else (WholeFormat.ofName? s).map whole

/-- The kind of the numbers of a format. -/
def kind : NumberFormat → NumberKind
  | binary64 => .binary64
  | binary32 => .binary32
  | whole f => .whole f
  | truth => .truth

/-- The format is one of the binary formats. -/
def isBinary : NumberFormat → Bool
  | binary64 => true
  | binary32 => true
  | _ => false

/-- A number in a format. -/
def read (format : NumberFormat) (l : Literal) : Except ArrayError Literal :=
  match format, l with
  | binary64, .whole i =>
    if fitsBinary64 i then .ok (.float (Float.ofInt i)) else .error .tooLarge
  | binary64, .float x => .ok (.float x)
  | binary32, .whole i =>
    if fitsBinary64 i then .ok (.float (toBinary64 (toBinary32 (Float.ofInt i))))
    else .error .tooLarge
  | binary32, .float x => .ok (.float (toBinary64 (toBinary32 x)))
  | whole f, .whole i => if f.holds i then .ok (.whole i) else .error .tooLarge
  | whole f, .float x =>
    match Decimal.parts x with
    | .undefined => .error .undefinedInteger
    | .infinite _ => .error .tooLarge
    | .finite negative m e =>
      let i := integerPart negative m e
      if f.holds i then .ok (.whole i) else .error .tooLarge
  | truth, .whole i => .ok (.whole (if i = 0 then 0 else 1))
  | truth, .float x => .ok (.whole (if x == 0 then 0 else 1))

end NumberFormat

/-- A tensor of numbers of one format. -/
structure NumericArray where
  format : NumberFormat
  entries : Tensor Literal

namespace NumericArray

/-- The array of a format that nested lists make. -/
def ofSetting (format : NumberFormat) (s : Setting) : Except ArrayError NumericArray := do
  let t ← nestedNumbers s
  let entries ← t.entries.mapM format.read
  match Tensor.ofArray? t.shape entries with
  | some t => .ok { format := format, entries := t }
  | none => .error .ragged

/-- The array with all its numbers along one axis. -/
def flatten (a : NumericArray) : NumericArray :=
  { a with entries := .ofVector ⟨a.entries.entries, rfl⟩ }

/-- The array in another shape, which has as many entries. -/
def reshape (a : NumericArray) (shape : Shape) : Except ArrayError NumericArray :=
  match Tensor.ofArray? shape a.entries.entries with
  | some t => .ok { a with entries := t }
  | none => .error .otherShape

/-- The shape of the array. -/
def shape (a : NumericArray) : Shape :=
  a.entries.shape

/-- The numbers in binary64. -/
def floats (a : NumericArray) : Tensor Float :=
  a.entries.map Literal.toFloat

/-- The numbers in a binary format. -/
def inFormat (α : Type) [FloatFormat α] (a : NumericArray) : Tensor α :=
  a.entries.map fun l => FloatFormat.ofFloat l.toFloat

/-- The array of numbers of a binary format. -/
def ofTensor {α : Type} [FloatFormat α] (format : NumberFormat) (t : Tensor α) : NumericArray where
  format := format
  entries := t.map fun x => .float (FloatFormat.toFloat x)

/-- The numbers with their kind. -/
def mixed (a : NumericArray) : Tensor Mixed :=
  a.entries.map fun l => .entry .device a.format.kind l

end NumericArray

end Stationary
