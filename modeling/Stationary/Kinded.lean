import Stationary.ArrayHome
import Stationary.Literal
import Stationary.NumberKind

/-!
# Numbers with their kind

A formula computes with plain numbers, as they are written, and with numbers of arrays,
each of which has a kind. A `Kinded` number is either of them; what a number of an array
holds beside its kind is left open (`Content`). It may be the value, or nothing at all :
then the rules say of which kind a result is, and whether there is one, before there are
any numbers.

Plain numbers among themselves have the arithmetic of literals. Where a plain number meets
an array, and where an operation is one of arrays only, it becomes an array of a kind
without a format of its own (`Kinded.asEntry`). An array on a device computes in the kind
in which two numbers meet; an array on the host takes a plain number into its own kind,
which must hold it (`hostKind`). A number that cannot be computed is `refused`, and so is
all that is computed from it.
-/

namespace Stationary

/-- What a number of an array holds beside its kind. -/
class Content (ν : Type) where
  /-- A plain number, in a kind. -/
  ofLiteral : NumberKind → Literal → ν
  /-- The number of one kind in another. -/
  convert : NumberKind → NumberKind → ν → ν
  /-- A function of a number, in a kind. -/
  unary : NumberKind → UnaryOp → ν → ν
  /-- A function of two numbers, in a kind. -/
  binary : ArrayHome → NumberKind → BinaryOp → ν → ν → ν
  /-- A power, in a kind. -/
  power : ArrayHome → NumberKind → ν → Int → ν
  /-- The number is above zero, if that is known. -/
  positive? : ArrayHome → NumberKind → ν → Option Bool
  /-- The number is strictly below another one. -/
  lt : NumberKind → ν → ν → Bool
  /-- The number is below another one or equal. -/
  le : NumberKind → ν → ν → Bool
  /-- The number is neither infinite nor undefined. -/
  isFinite : ν → Bool

/-- A number of a formula. -/
inductive Kinded (ν : Type)
  /-- A number as it is written. -/
  | plain (l : Literal)
  /-- A number of an array. -/
  | entry (home : ArrayHome) (kind : NumberKind) (value : ν)
  /-- There is no number. -/
  | refused (r : Refusal)

/-- The kind of the result where a number of the host meets a plain one. -/
def hostKind : NumberKind → Literal → Except Refusal NumberKind
  | .truth, .whole i => if fitsInt64 i then .ok (.whole .int64) else .error .tooLarge
  | .anyWhole, .whole i => if fitsInt64 i then .ok .anyWhole else .error .tooLarge
  | .whole f, .whole i => if f.holds i then .ok (.whole f) else .error .tooLarge
  | k, .whole i => if fitsBinary64 i then .ok k else .error .tooLarge
  | k, .float _ => .ok (if k.isWhole then .binary64 else k)

namespace Kinded

variable {ν : Type}

instance : Inhabited (Kinded ν) := ⟨.plain default⟩

/-- A number, or the refusal in its place. -/
def ofExcept : Except Refusal (Kinded ν) → Kinded ν
  | .ok x => x
  | .error r => .refused r

/-- Why there is no number. -/
def refusal? : Kinded ν → Option Refusal
  | refused r => some r
  | _ => none

/-- The kind of a number, as one of an array. -/
def kind : Kinded ν → NumberKind
  | plain (.whole _) => .anyWhole
  | plain (.float _) => .anyFloat
  | entry _ k _ => k
  | refused _ => .truth

/-- The number on the host. -/
def onHost : Kinded ν → Kinded ν
  | entry _ k v => entry .host k v
  | x => x

variable [Content ν]

/-- The number as one of an array, with its kind. A plain integer must have 64 bits. -/
def asEntry : Kinded ν → Except Refusal (NumberKind × ν)
  | plain l =>
    let k := (plain l : Kinded ν).kind
    if l.fits .int64 then .ok (k, Content.ofLiteral k l) else .error .tooLarge
  | entry _ k v => .ok (k, v)
  | refused r => .error r

/-- The number in an array of a kind. -/
def inKind (k : NumberKind) (x : Kinded ν) : Kinded ν :=
  match x with
  | plain l => entry .device k (Content.ofLiteral k l)
  | entry _ j v => entry .device k (Content.convert j k v)
  | refused r => refused r

/-- A function of one number of an array. -/
def unaryEntry (op : UnaryOp) (home : ArrayHome) (k : NumberKind) (v : ν) :
    Except Refusal (Kinded ν) := do
  let r ← op.kind k
  .ok (entry (if op = .neg then home else .device) r
    (Content.unary r op (Content.convert k r v)))

/-- A function of one number. -/
def unary (op : UnaryOp) (x : Kinded ν) : Kinded ν :=
  match x with
  | refused r => refused r
  | entry home k v => ofExcept (unaryEntry op home k v)
  | plain l =>
    if op = .neg then plain l.neg
    else ofExcept do
      let (k, v) ← (plain l).asEntry
      unaryEntry op .device k v

/-- A function of two numbers of arrays on a device. -/
def binaryOnDevice (op : BinaryOp) (x y : Kinded ν) : Except Refusal (Kinded ν) := do
  let (j, v) ← x.asEntry
  let (k, w) ← y.asEntry
  let r ← op.kind (j.join k)
  .ok (entry .device r
    (Content.binary .device r op (Content.convert j r v) (Content.convert k r w)))

/-- A function of two numbers on the host, in a kind. -/
def binaryOnHost (op : BinaryOp) (k : NumberKind) (v w : ν) : Except Refusal (Kinded ν) := do
  let r ← op.kind k
  .ok (entry .host r (Content.binary .host r op v w))

/-- A function of two numbers. -/
def binary (op : BinaryOp) (x y : Kinded ν) : Kinded ν :=
  match Literal.ring? op with
  | none => ofExcept (binaryOnDevice op x y)
  | some ring =>
    ofExcept <|
      match x, y with
      | plain l, plain m => (ring l m).map plain
      | entry .host j v, entry .host k w =>
        let r := j.join k
        binaryOnHost op r (Content.convert j r v) (Content.convert k r w)
      | entry .host k v, plain l => do
        let r ← hostKind k l
        binaryOnHost op r (Content.convert k r v) (Content.ofLiteral r l)
      | plain l, entry .host k v => do
        let r ← hostKind k l
        binaryOnHost op r (Content.ofLiteral r l) (Content.convert k r v)
      | x, y => binaryOnDevice op x y

/-- A power of a number on the host, whose kind must hold the exponent. -/
def powerOnHost (j : NumberKind) (v : ν) (k : Int) : Except Refusal (Kinded ν) := do
  let r ← hostKind j (.whole k)
  if r.isWhole && k < 0 then .error .negativeExponent
  else .ok (entry .host r (Content.power .host r (Content.convert j r v) k))

/-- The power with an integer exponent. Integers on a device have none with a negative
one. -/
def power (x : Kinded ν) (k : Int) : Kinded ν :=
  match x with
  | refused r => refused r
  | plain l => ofExcept ((l.power k).map plain)
  | entry .host j v => ofExcept (powerOnHost j v k)
  | entry .device j v =>
    let r := j.numeric
    if r.isWhole && k < 0 then refused .undefinedForKind
    else entry .device r (Content.power .device r (Content.convert j r v) k)

/-- The number is above zero, if that is known. -/
def positive? : Kinded ν → Option Bool
  | plain l => some l.positive
  | entry home k v => Content.positive? home k v
  | refused _ => none

/-- The choice between two numbers, in the kind in which they meet. -/
def choose (c x y : Kinded ν) : Kinded ν :=
  ofExcept do
    let (j, v) ← x.asEntry
    let (k, w) ← y.asEntry
    let r := j.join k
    .ok (entry .device r
      (if c.positive?.getD true then Content.convert j r v else Content.convert k r w))

/-- Two numbers in the kind in which they meet; plain numbers stay as they are. -/
def matched (x y : Kinded ν) : Kinded ν × Kinded ν :=
  match x, y with
  | plain l, plain m => (plain l, plain m)
  | x, y =>
    let inMeeting (z : Kinded ν) : Kinded ν :=
      ofExcept do
        let (j, v) ← z.asEntry
        let r := x.kind.join y.kind
        .ok (entry .device r (Content.convert j r v))
    (inMeeting x, inMeeting y)

/-- A plain number in an array of a kind, which must hold it. -/
def placed (k : NumberKind) (l : Literal) : Kinded ν :=
  let holds :=
    match k, l with
    | .whole f, .whole i => f.holds i
    | _, .whole i => fitsBinary64 i
    | _, .float _ => true
  if holds then entry .device k (Content.ofLiteral k l) else refused .tooLarge

/-- The numbers of one array, in the kind in which they all meet. -/
def alike (xs : Array (Kinded ν)) : Array (Kinded ν) :=
  match xs.toList with
  | [] => xs
  | x :: rest =>
    let k := (rest.foldl (fun k y => k.join y.kind) x.kind).settled
    xs.map fun
      | plain l => placed k l
      | x => x.inKind k

/-- A comparison of two numbers in the kind in which they meet. -/
def compare (test : NumberKind → ν → ν → Bool) (x y : Kinded ν) : Bool :=
  match x.asEntry, y.asEntry with
  | .ok (j, v), .ok (k, w) =>
    let r := j.join k
    test r (Content.convert j r v) (Content.convert k r w)
  | _, _ => false

instance : Scalar (Kinded ν) where
  zero := plain (.whole 0)
  one := plain (.whole 1)
  add := binary .add
  sub := binary .sub
  mul := binary .mul
  div := binary .div
  neg := unary .neg
  abs := unary .abs
  sqrt := unary .sqrt
  max := binary .max
  lt := compare Content.lt
  le := compare Content.le
  isFinite
    | plain (.float x) => x.isFinite
    | plain (.whole _) => true
    | entry _ _ v => Content.isFinite v
    | refused _ => false
  eps := plain (.float Scalar.eps)
  ofNat n := plain (.whole n)

instance : Elementary (Kinded ν) where
  ofFloat x := plain (.float x)
  ofInt i := plain (.whole i)
  exp := unary .exp
  log := unary .log
  sin := unary .sin
  cos := unary .cos
  tanh := unary .tanh
  power := power
  positive? := positive?
  choose := choose
  matched := matched
  alike := alike
  refusal? := refusal?

end Kinded

end Stationary
