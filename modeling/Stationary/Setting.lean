import Stationary.ArrayHome
import Stationary.Decimal.Column
import Stationary.Decimal.Reading
import Stationary.Text.Grid
import Stationary.Text.Quoted

/-!
# Settings

A `Setting` is a value as a caller gives it, before anything is known about it : a
number, a truth value, a text, nothing, a collection of such values, or an object of any
other kind. Error messages show settings (`Setting.shown`) and name their kinds
(`Setting.kind`); an integer of too many digits has no text (`Setting.isShowable`).

An `array` is held by its nested lists, or by a single number if it has no axis, with the
kind of its entries; it may lie in the memory of the host or on a device. A number of an
array that stands alone is one that has no axis. Numbers are
compared by value across truth values, integers and binary64 numbers, so that one, true
and 1.0 are the same tag (`Setting.tag?`) and the same member of a set (`Setting.same`).

A range is no collection : its entries are counted before any is formed.
-/

namespace Stationary

/-- The kind of the entries of an array. -/
inductive EntryKind
  | truths
  | int64
  | uint64
  | float64
  /-- Texts of at most so many characters. -/
  | texts (width : Nat)
  /-- Values of any kind. -/
  | anything
  deriving DecidableEq

/-- The name of a kind of entries. -/
def EntryKind.name : EntryKind → String
  | truths => "bool"
  | int64 => "int64"
  | uint64 => "uint64"
  | float64 => "float64"
  | texts width => "'<U" ++ toString width ++ "'"
  | anything => "object"

/-- Kinds of entries that need not be named beside them. -/
def EntryKind.isPlain : EntryKind → Bool
  | truths => true
  | int64 => true
  | float64 => true
  | _ => false

/-- The integers from `start` on in steps of `step`, as long as `stop` is not reached. -/
structure IntegerRange where
  start : Int
  stop : Int
  step : Int
  step_ne_zero : step ≠ 0

namespace IntegerRange

/-- The number of integers of the range. -/
def count (r : IntegerRange) : Nat :=
  (-(r.start - r.stop).fdiv r.step).toNat

/-- The integer of the range at a place. -/
def entry (r : IntegerRange) (k : Nat) : Int :=
  r.start + k * r.step

/-- The range has more entries than can be counted in 64 bits with a sign. -/
def isTooLong (r : IntegerRange) : Bool :=
  9223372036854775807 < r.count

/-- Two ranges have the same integers in turn. -/
def same (r q : IntegerRange) : Bool :=
  r.count = q.count &&
    (r.count = 0 || (r.start = q.start && (r.count = 1 || r.step = q.step)))

/-- The text of the range. -/
def shown (r : IntegerRange) : String :=
  "range(" ++ toString r.start ++ ", " ++ toString r.stop ++
    (if r.step = 1 then "" else ", " ++ toString r.step) ++ ")"

end IntegerRange

/-- A value as a caller gives it. -/
inductive Setting
  | nothing
  | truth (b : Bool)
  | int (i : Int)
  | float (x : Float)
  | text (s : String)
  | list (items : List Setting)
  | tuple (items : List Setting)
  | set (items : List Setting)
  | dict (items : List (String × Setting))
  | bytes (items : List Nat)
  | range (r : IntegerRange)
  | array (home : ArrayHome) (entries : EntryKind) (contents : Setting)
  /-- A sequence of any other kind, with its text and its elements. -/
  | sequence (kind shownAs : String) (items : List Setting)
  /-- What can be gone through, and is no sequence. -/
  | iterable (kind shownAs : String) (items : List Setting)
  /-- Anything else, which has no place in the order of numbers. It may still equal zero
  or one. -/
  | object (kind shownAs : String) (number : Option Bool)

instance : Inhabited Setting := ⟨.nothing⟩

namespace Setting

/-- The name of the kind of a setting. -/
def kind : Setting → String
  | nothing => "NoneType"
  | truth _ => "bool"
  | int _ => "int"
  | float _ => "float"
  | text _ => "str"
  | list _ => "list"
  | tuple _ => "tuple"
  | set _ => "set"
  | dict _ => "dict"
  | bytes _ => "bytes"
  | range _ => "range"
  | array _ _ _ => "array"
  | sequence kind _ _ => kind
  | iterable kind _ _ => kind
  | object kind _ _ => kind

/-- The integers from `start` up to below `stop`. -/
def between (start stop : Int) : Setting :=
  range { start := start, stop := stop, step := 1, step_ne_zero := by decide }

/-- The integers of a range. -/
def integers (r : IntegerRange) : List Setting :=
  (List.range r.count).map fun (k : Nat) => .int (r.entry k)

/-- The elements of a setting that is a sequence. A text is a sequence too, but as a policy
it is never asked for its elements. -/
def elements? : Setting → Option (List Setting)
  | list items => some items
  | tuple items => some items
  | bytes items => some (items.map fun (b : Nat) => .int b)
  | range r => some (integers r)
  | sequence _ _ items => some items
  | _ => none

/-- The elements of what an array holds, be it a text of its own. -/
def arrayItems? : Setting → Option (List Setting)
  | text s => some (s.toList.map fun c => .text (String.singleton c))
  | other => other.elements?

/-- What a setting gives that is gone through : beside the elements of a sequence the members
of a set, the names of a dictionary and the parts of an array. -/
def iterated? : Setting → Option (List Setting)
  | set members => some members
  | dict items => some (items.map fun item => .text item.1)
  | iterable _ _ items => some items
  | array home entries (list parts) => some (parts.map (array home entries))
  | other => other.arrayItems?

/-- The truth value that a setting equals as a number : false for zero, true for one. -/
def tag? : Setting → Option Bool
  | truth b => some b
  | int i => if i = 0 then some false else if i = 1 then some true else none
  | float x => if x == 0 then some false else if x == 1 then some true else none
  | object _ _ number => number
  | _ => none

mutual

/-- The setting can be looked up : it is no collection that may change. -/
def isHashable : Setting → Bool
  | list _ => false
  | set _ => false
  | dict _ => false
  | array _ _ _ => false
  | tuple items => areHashable items
  | _ => true

/-- Several settings can be looked up. -/
def areHashable : List Setting → Bool
  | [] => true
  | item :: items => isHashable item && areHashable items

end

/-- The integer that a number equals, if it equals one. -/
def integer? : Setting → Option Int
  | truth b => some (if b then 1 else 0)
  | int i => some i
  | float x =>
    match Decimal.parts x with
    | .finite negative m e =>
      let r := Decimal.Ratio.ofBinary m e
      if r.num % r.den = 0 then some (if negative then -(r.floor : Int) else r.floor) else none
    | _ => none
  | _ => none

mutual

/-- Two settings that can be looked up are the same : as numbers by their value. -/
def same : Setting → Setting → Bool
  | nothing, nothing => true
  | text s, text t => s = t
  | bytes as, bytes bs => as = bs
  | range r, range q => r.same q
  | tuple as, tuple bs => allSame as bs
  | float x, float y => x == y
  | a, b =>
    match a.integer?, b.integer? with
    | some i, some j => i = j
    | _, _ => false

/-- The settings of two lists are the same in turn. -/
def allSame : List Setting → List Setting → Bool
  | [], [] => true
  | a :: as, b :: bs => same a b && allSame as bs
  | _, _ => false

end

/-- An integer comes before another one in a set : by size, with the negative ones last. -/
def comesFirst (i j : Int) : Bool :=
  if (i < 0) = (j < 0) then i ≤ j else j < 0

/-- The members of a set in the order in which they are shown. Members that are no integers
stay in the order in which they were given. -/
def inOrder (members : List Setting) : List Setting :=
  let value (x : Setting) : Int := x.integer?.getD 0
  if members.all fun x => x.integer?.isSome then
    members.mergeSort fun a b => comesFirst (value a) (value b)
  else members

/-- A set of some members, which all must be such as can be looked up. Of members that are
the same the first one stays. -/
def setOf? (members : List Setting) : Option Setting :=
  if areHashable members then
    let distinct := members.foldl
      (fun kept x => if kept.any (same · x) then kept else kept ++ [x]) []
    some (set (inOrder distinct))
  else none

/-- One byte, as it is shown between quotes of the kind `quote`. -/
def shownByte (quote : Char) (b : Nat) : List Char :=
  let c := Char.ofNat b
  if c = quote || c = '\\' then ['\\', c]
  else if c = '\t' then ['\\', 't']
  else if c = '\n' then ['\\', 'n']
  else if c = '\r' then ['\\', 'r']
  else if 32 ≤ b && b < 127 then [c]
  else '\\' :: 'x' :: Text.hexadecimal 2 b

/-- The text of bytes. -/
def shownBytes (items : List Nat) : String :=
  let q := Text.quoteFor (items.map Char.ofNat)
  String.ofList ('b' :: q :: items.flatMap (shownByte q) ++ [q])

mutual

/-- The numbers of nested lists, in order. -/
def leaves : Setting → List Setting
  | list items => allLeaves items
  | other => [other]

/-- The numbers of several nested lists. -/
def allLeaves : List Setting → List Setting
  | [] => []
  | item :: items => leaves item ++ allLeaves items

end

/-- The lengths of the axes of nested lists. -/
def axes : Setting → List Nat
  | list [] => [0]
  | list (item :: items) => (items.length + 1) :: axes item
  | _ => []

/-- The text of a value that is no collection. -/
def plainText : Setting → String
  | truth b => if b then "True" else "False"
  | int i => toString i
  | float x => Decimal.plain x
  | text s => Text.quoted s
  | _ => "None"

/-- The number of an entry. -/
def entryFloat : Setting → Float
  | float x => x
  | _ => 0.0

/-- The integer of an entry. -/
def entryInt : Setting → Int
  | int i => i
  | _ => 0

/-- The texts of the entries of an array, which have one form. Entries of any kind have
their own `texts`. -/
def entryTexts (entries : EntryKind) (isSingle : Bool) (leaves : List Setting)
    (texts : List String) : List String :=
  match entries with
  | .float64 => Decimal.column (leaves.map entryFloat)
  | .int64 => Decimal.wholeColumn (leaves.map entryInt)
  | .uint64 => Decimal.wholeColumn (leaves.map entryInt)
  | .truths =>
    leaves.map fun
      | truth true => if isSingle then "True" else " True"
      | _ => "False"
  | _ => texts

/-- Only the edges of an array of this shape are written. -/
def isAbridged (shape : List Nat) : Bool :=
  Text.mostWords < Text.wordCount shape

/-- The entries of an array behind its name, as nested lists. -/
def arrayBody (name : String) (entries : EntryKind) (contents : Setting)
    (texts : List String) : String :=
  let shape := contents.axes
  let short := isAbridged shape
  if Text.wordCount shape = 0 then "[]"
  else
    Text.grid short shape (name.length + 1) (Text.gridWidth - 1)
      (entryTexts entries shape.isEmpty (Text.edgeEntries short shape contents.leaves)
        (Text.edgeEntries short shape texts))

/-- A shape between parentheses. -/
def axesText (shape : List Nat) : String :=
  match shape with
  | [n] => "(" ++ toString n ++ ",)"
  | ns => "(" ++ String.intercalate ", " (ns.map toString) ++ ")"

/-- What is between the entries of an array and what is said of them : a blank, or a new
line where `used` characters and the `more` to come do not fit on one. -/
def arrayBreak (name : String) (used more : Nat) : String :=
  if Text.gridWidth < used + more + 1 then "\n" ++ Text.blanks name.length else " "

/-- The text of an array on the host. The kind of the entries is said where it is not
plain, and the shape where the entries that are written do not show it. -/
def hostArrayText (entries : EntryKind) (contents : Setting) (texts : List String) :
    String :=
  let name := "array("
  let shape := contents.axes
  let isEmpty := Text.wordCount shape = 0
  let start := name ++ arrayBody name entries contents texts
  let extras :=
    (if (isEmpty && shape ≠ [0]) || isAbridged shape then ["shape=" ++ axesText shape]
      else []) ++
      (if isEmpty || !entries.isPlain then ["dtype=" ++ entries.name] else [])
  if extras.isEmpty then start ++ ")"
  else
    let extra := String.intercalate ", " extras ++ ")"
    start ++ "," ++ arrayBreak name (Text.lastLineLength start + 1) extra.length ++ extra

/-- The text of an array on a device. A number that became an array without a list around
it still takes the kind of what it meets. -/
def deviceArrayText (entries : EntryKind) (contents : Setting) (texts : List String) :
    String :=
  let name := "Array("
  let shape := contents.axes
  let body := arrayBody name entries contents texts
  let body := if Text.wordCount shape = 0 then body ++ ", shape=" ++ axesText shape else body
  let isWeak := shape.isEmpty && entries ≠ .truths
  let extra := "dtype=" ++ entries.name ++ (if isWeak then ", weak_type=True" else "") ++ ")"
  name ++ body ++ "," ++ arrayBreak name (Text.lastLineLength body + 2) extra.length ++ extra

/-- The text of an array, of which the texts of the entries are known. -/
def arrayText (home : ArrayHome) (entries : EntryKind) (contents : Setting)
    (texts : List String) : String :=
  match home with
  | .host => hostArrayText entries contents texts
  | .device => deviceArrayText entries contents texts

mutual

/-- The text in which a setting is shown. -/
def shown : Setting → String
  | list items => "[" ++ String.intercalate ", " (shownAll items) ++ "]"
  | tuple [] => "()"
  | tuple [item] => "(" ++ shown item ++ ",)"
  | tuple items => "(" ++ String.intercalate ", " (shownAll items) ++ ")"
  | set [] => "set()"
  | set items => "\x7b" ++ String.intercalate ", " (shownAll items) ++ "\x7d"
  | dict items => "\x7b" ++ String.intercalate ", " (shownEntries items) ++ "\x7d"
  | bytes items => shownBytes items
  | range r => r.shown
  | sequence _ shownAs _ => shownAs
  | iterable _ shownAs _ => shownAs
  | object _ shownAs _ => shownAs
  | array home entries contents => arrayText home entries contents (leafTexts contents)
  | other => plainText other

/-- The texts of several settings. -/
def shownAll : List Setting → List String
  | [] => []
  | item :: items => shown item :: shownAll items

/-- The texts of the entries of a dictionary. -/
def shownEntries : List (String × Setting) → List String
  | [] => []
  | (key, item) :: items => (Text.quoted key ++ ": " ++ shown item) :: shownEntries items

/-- The texts of the entries of nested lists. -/
def leafTexts : Setting → List String
  | list items => allLeafTexts items
  | dict items => ["\x7b" ++ String.intercalate ", " (shownEntries items) ++ "\x7d"]
  | other => [plainText other]

/-- The texts of the entries of several nested lists. -/
def allLeafTexts : List Setting → List String
  | [] => []
  | item :: items => leafTexts item ++ allLeafTexts items

end

/-- The setting as a text shows it that it is put into. -/
def printed : Setting → String
  | text s => s
  | array _ entries contents =>
    match contents with
    | list _ => arrayBody "" entries contents (leafTexts contents)
    | single => plainText single
  | other => other.shown

/-- The integer has no more digits than a text may have. -/
def isWritable (i : Int) : Bool :=
  i.natAbs < Decimal.pow10 Decimal.longestInteger

mutual

/-- The setting has a text, since all its integers have. -/
def isShowable : Setting → Bool
  | int i => isWritable i
  | list items => areShowable items
  | tuple items => areShowable items
  | set items => areShowable items
  | dict items => entriesShowable items
  | range r => isWritable r.start && isWritable r.stop && isWritable r.step
  | array _ _ contents => isShowable contents
  | _ => true

/-- Several settings have a text. -/
def areShowable : List Setting → Bool
  | [] => true
  | item :: items => isShowable item && areShowable items

/-- The entries of a dictionary have a text. -/
def entriesShowable : List (String × Setting) → Bool
  | [] => true
  | (_, item) :: items => isShowable item && entriesShowable items

end

/-- What is said of an integer that has too many digits for a text. -/
def tooManyDigitsText : String :=
  "Exceeds the limit (" ++ toString Decimal.longestInteger ++
    " digits) for integer string conversion; use sys.set_int_max_str_digits() to increase the limit"

/-- A text that a setting is put into, or what is said instead if the setting has no text. -/
def textWith (given : Setting) (message : String) : String :=
  if given.isShowable then message else tooManyDigitsText

end Setting

/-- What is said of a range with too many entries. -/
def rangeTooLongText : String :=
  "Python int too large to convert to C ssize_t"

end Stationary
