import Stationary.Vec

/-!
# Elimination with row exchanges

`factor` takes a square matrix apart by Gaussian elimination : in each layer the row
whose first entry is the first of largest magnitude is moved to the top, the rows
below lose their first entry, and the rest of the matrix is factored in turn. A layer
keeps the pivot, the rest of its row (`upper`) and the multipliers of the rows below
(`lower`). `Factors.solve` runs a right-hand side down the layers and the solution up
again, so a solution is one pass over the factors. Both multiply with the inverse of a
pivot, which is zero in an arithmetic where it would be subnormal.

`Factors.pivots` and `Factors.allFinite` are what a test for singularity looks at :
the magnitudes of the pivots, and whether any number of the factors is infinite or
undefined.
-/

namespace Stationary

/-- A square matrix taken apart by elimination with row exchanges. -/
inductive Factors (α : Type) : Nat → Type
  | empty : Factors α 0
  /-- The row moved to the top, its first entry and the others, the multipliers of the
  rows below, and the factors of what is left of them. -/
  | layer {n : Nat} (row : Fin (n + 1)) (pivot : α) (upper lower : Vector α n)
      (below : Factors α n) : Factors α (n + 1)

variable {α : Type} {n : Nat}

/-- The rows `i` and `0` exchanged. -/
def bringToTop {β : Type} (i : Fin (n + 1)) (v : Vector β (n + 1)) : Vector β (n + 1) :=
  v.swap 0 i (Nat.succ_pos n) i.isLt

section Arithmetic

variable [Scalar α]

/-- The index of the first entry of largest magnitude. -/
def pivotIndex (column : Vector α (n + 1)) : Fin (n + 1) :=
  (List.finRange (n + 1)).foldl
    (fun best i =>
      if Scalar.lt (Scalar.abs (column.get best)) (Scalar.abs (column.get i)) then i else best)
    ⟨0, Nat.succ_pos n⟩

/-- The multipliers that clear the first entries of `rows`. -/
def multipliers (pivot : α) (rows : Vector (Vector α (n + 1)) n) : Vector α n :=
  rows.map fun row => Vec.head row * (1 / pivot)

/-- The rows less the multiples of `upper`, without their first entries. -/
def eliminate (upper lower : Vector α n) (rows : Vector (Vector α (n + 1)) n) :
    SquareMatrix α n :=
  Vector.zipWith
    (fun row l => Vector.zipWith (fun a u => a - l * u) (Vec.rest row) upper) rows lower

theorem get_multipliers (pivot : α) (rows : Vector (Vector α (n + 1)) n) (i : Fin n) :
    (multipliers pivot rows).get i = Vec.head (rows.get i) * (1 / pivot) :=
  Vec.get_map ..

theorem get_eliminate (upper lower : Vector α n) (rows : Vector (Vector α (n + 1)) n) (i : Fin n) :
    (eliminate upper lower rows).get i =
      Vector.zipWith (fun a u => a - lower.get i * u) (Vec.rest (rows.get i)) upper :=
  Vec.get_zipWith ..

theorem get_get_eliminate (upper lower : Vector α n) (rows : Vector (Vector α (n + 1)) n)
    (i j : Fin n) : ((eliminate upper lower rows).get i).get j =
      (rows.get i).get j.succ - lower.get i * upper.get j := by
  rw [get_eliminate, Vec.get_zipWith, Vec.get_rest]

/-- Gaussian elimination with partial pivoting. -/
def factor : {n : Nat} → SquareMatrix α n → Factors α n
  | 0, _ => .empty
  | _ + 1, A =>
    let row := pivotIndex (A.map Vec.head)
    let B := bringToTop row A
    let pivot := Vec.head (Vec.head B)
    let upper := Vec.rest (Vec.head B)
    let lower := multipliers pivot (Vec.rest B)
    .layer row pivot upper lower (factor (eliminate upper lower (Vec.rest B)))

namespace Factors

/-- The magnitudes of the pivots, from the top. -/
def pivots : {n : Nat} → Factors α n → List α
  | _, .empty => []
  | _, .layer _ pivot _ _ below => Scalar.abs pivot :: below.pivots

/-- The largest magnitude of a pivot. -/
def largestPivot (f : Factors α n) : α :=
  f.pivots.foldl Scalar.max 0

/-- Some pivot is at or below `rtol` times the largest one. -/
def isSingular (f : Factors α n) (rtol : α) : Bool :=
  f.pivots.any fun p => Scalar.le p (rtol * f.largestPivot)

/-- All pivots, upper entries and multipliers are finite. -/
def allFinite : {n : Nat} → Factors α n → Bool
  | _, .empty => true
  | _, .layer _ pivot upper lower below =>
    Scalar.isFinite pivot && Vec.allFinite upper && Vec.allFinite lower && below.allFinite

/-- The solution for one right-hand side : down the layers, and up again. -/
def solve : {n : Nat} → Factors α n → Vector α n → Vector α n
  | _, .empty, b => b
  | _, .layer row pivot upper lower below, b =>
    let r := bringToTop row b
    let x := below.solve (Vector.zipWith (fun b l => b - l * Vec.head r) (Vec.rest r) lower)
    Vec.cons ((Vec.head r - Vec.dot upper x) * (1 / pivot)) x

/-- The same factors in another format. -/
def map {β : Type} (f : α → β) : {n : Nat} → Factors α n → Factors β n
  | _, .empty => .empty
  | _, .layer row pivot upper lower below =>
    .layer row (f pivot) (upper.map f) (lower.map f) (below.map f)

end Factors

end Arithmetic

end Stationary
