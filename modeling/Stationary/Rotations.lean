import Stationary.Svd

/-!
# Singular values by plane rotations

The columns of a matrix are rotated in pairs until every two of them are orthogonal up
to rounding; their lengths are then the singular values, the columns divided by their
lengths the left vectors, and the same rotations applied to the columns of the
identity the right vectors. A column of length zero is its own left vector. Every sweep
visits each pair once, and a fixed number of sweeps bounds the work; far fewer are
needed.

The matrix is first divided by a power of two near its largest entry (`Binade`), which
is exact and keeps the squares of the entries away from overflow.
-/

namespace Stationary

/-- Formats in which the power of two of a number can be read off. -/
class Binade (α : Type) where
  /-- The power of two at the number's magnitude; one for zero and for non-finite numbers. -/
  binade : α → α

instance : Binade Float where
  binade x :=
    if x == 0 || !x.isFinite then 1 else Float.scaleB 1 (x.frExp.2 - 1)

instance : Binade Float32 where
  binade x :=
    if x == 0 || !x.isFinite then 1 else Float32.scaleB 1 (x.frExp.2 - 1)

/-- A column of the rotated matrix, and the same combination of unit vectors. -/
structure RotatedColumn (α : Type) (n : Nat) where
  image : Vector α n
  source : Vector α n

variable {α : Type} {n : Nat} [Scalar α]

/-- The columns of a matrix. -/
def columns (A : SquareMatrix α n) : Vector (Vector α n) n :=
  Vector.ofFn fun j : Fin n => A.map fun row => row.get j

/-- The vector `c · u + s · v`. -/
def combine (c s : α) (u v : Vector α n) : Vector α n :=
  Vector.zipWith (fun u v => c * u + s * v) u v

/-- Cosine and sine of the rotation that makes two columns orthogonal, from their
squared lengths and their product. -/
def rotationOf (pp qq pq : α) : α × α :=
  let z := (qq - pp) / (pq + pq)
  let root := Scalar.abs z + Scalar.sqrt (1 + z * z)
  let t := if Scalar.lt z 0 then -(1 / root) else 1 / root
  let c := 1 / Scalar.sqrt (1 + t * t)
  (c, c * t)

/-- The rotation for two columns, unless they are orthogonal up to rounding. -/
def rotation? (p q : Vector α n) : Option (α × α) :=
  let pp := Vec.sumSquares p
  let qq := Vec.sumSquares q
  let pq := Vec.dot p q
  if Scalar.lt (Scalar.eps * (Scalar.sqrt pp * Scalar.sqrt qq)) (Scalar.abs pq) then
    some (rotationOf pp qq pq)
  else none

/-- One pair of columns made orthogonal; the flag says whether a rotation was needed. -/
def rotatePair (i j : Fin n) (state : Vector (RotatedColumn α n) n × Bool) :
    Vector (RotatedColumn α n) n × Bool :=
  let p := state.1.get i
  let q := state.1.get j
  match rotation? p.image q.image with
  | none => state
  | some (c, s) =>
    let p₂ := ⟨combine c (-s) p.image q.image, combine c (-s) p.source q.source⟩
    let q₂ := ⟨combine s c p.image q.image, combine s c p.source q.source⟩
    ((state.1.set i p₂ i.isLt).set j q₂ j.isLt, true)

/-- One sweep over all pairs of columns. -/
def sweep (state : Vector (RotatedColumn α n) n) : Vector (RotatedColumn α n) n × Bool :=
  (List.finRange n).foldl
    (fun state i =>
      (List.finRange n).foldl
        (fun state j => if i < j then rotatePair i j state else state) state)
    (state, false)

/-- Sweeps until no pair needs a rotation, at most `fuel` of them. -/
def sweeps : Nat → Vector (RotatedColumn α n) n → Vector (RotatedColumn α n) n
  | 0, state => state
  | fuel + 1, state =>
    match sweep state with
    | (next, true) => sweeps fuel next
    | (next, false) => next

/-- The largest magnitude of an entry. -/
def largestEntry (A : SquareMatrix α n) : α :=
  A.foldl (fun m row => row.foldl (fun m x => Scalar.max m (Scalar.abs x)) m) 0

/-- The decomposition by rotations of the columns. -/
def svdByRotations [Binade α] (A : SquareMatrix α n) : Svd α n :=
  let scale := Binade.binade (largestEntry A)
  let images := columns A
  let start := Vector.ofFn fun j : Fin n =>
    { image := (images.get j).map (· / scale)
      source := Vector.ofFn fun i : Fin n => if i = j then 1 else 0 : RotatedColumn α n }
  let final := sweeps 60 start
  let lengths := final.map fun c => Vec.norm c.image
  { left := Vector.zipWith
      (fun c s => c.image.map fun x => if Scalar.lt 0 s then x / s else x) final lengths
    values := lengths.map (· * scale)
    right := final.map (·.source) }

instance : Decomposes Float := ⟨svdByRotations⟩

instance : Decomposes Float32 := ⟨svdByRotations⟩

end Stationary
