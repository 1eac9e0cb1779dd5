import Stationary.Vec

/-!
# Tensors

A tensor is an array of numbers with a shape; the last axis runs fastest. Vectors and
square matrices are tensors of shapes `[n]` and `[n, n]` (`Tensor.ofVector`,
`Tensor.ofMatrix`), and tensors of these shapes are read back as such
(`Tensor.toVector?_ofVector`, `Tensor.toMatrix?_ofMatrix`).

Two shapes are combined from their last axes : axes of equal length stay, an axis of
length one is repeated along the other, and so is an axis that is missing
(`Shape.combine?`). `Tensor.stretch` repeats a tensor along a larger shape, and
`Tensor.zip?` combines two tensors entry by entry.
-/

namespace Stationary

/-- The lengths of the axes of a tensor. -/
abbrev Shape := List Nat

namespace Shape

/-- The number of entries. -/
def size (s : Shape) : Nat :=
  s.foldr (· * ·) 1

/-- Combination of two shapes of as many axes, read from the last axis. -/
def combineReversed? : List Nat → List Nat → Option (List Nat)
  | [], ys => some ys
  | xs, [] => some xs
  | x :: xs, y :: ys =>
    if x = y || y = 1 then (combineReversed? xs ys).map (x :: ·)
    else if x = 1 then (combineReversed? xs ys).map (y :: ·)
    else none

/-- The shape that two shapes are repeated to, unless they disagree. -/
def combine? (s t : Shape) : Option Shape :=
  (combineReversed? s.reverse t.reverse).map List.reverse

/-- The place in a tensor of axes `own` of the entry that is repeated at place `k` of a
tensor of axes `target`; both are read from the last axis. -/
def sourceReversed : List Nat → List Nat → Nat → Nat
  | [], _, _ => 0
  | _, [], _ => 0
  | d :: ds, e :: es, k =>
    (if d = 1 then 0 else k % e) + d * sourceReversed ds es (k / e)

/-- The shape between parentheses. -/
def text : Shape → String
  | [] => "()"
  | [n] => "(" ++ toString n ++ ",)"
  | ns => "(" ++ String.intercalate ", " (ns.map toString) ++ ")"

end Shape

/-- An array of numbers with a shape. -/
structure Tensor (α : Type) where
  shape : Shape
  entries : Array α
  size_eq : entries.size = shape.size

namespace Tensor

variable {α β γ : Type} {n : Nat}

/-- A single number. -/
def scalar (x : α) : Tensor α :=
  ⟨[], #[x], rfl⟩

/-- A vector. -/
def ofVector (v : Vector α n) : Tensor α :=
  ⟨[n], v.toArray, by simp [Shape.size]⟩

/-- A square matrix. -/
def ofMatrix (A : SquareMatrix α n) : Tensor α :=
  ⟨[n, n], A.flatten.toArray, by simp [Shape.size]⟩

/-- The entries of an array, in a shape that has as many. -/
def ofArray? (shape : Shape) (entries : Array α) : Option (Tensor α) :=
  if h : entries.size = shape.size then some ⟨shape, entries, h⟩ else none

/-- The tensor as a vector of length `n`, if its shape is `[n]`. -/
def toVector? (n : Nat) (t : Tensor α) : Option (Vector α n) :=
  if h : t.shape = [n] then some ⟨t.entries, by simp [t.size_eq, h, Shape.size]⟩ else none

/-- The tensor as a square matrix, if its shape is `[n, n]`. -/
def toMatrix? (n : Nat) (t : Tensor α) : Option (SquareMatrix α n) :=
  if h : t.shape = [n, n] then
    let v : Vector α (n * n) := ⟨t.entries, by simp [t.size_eq, h, Shape.size]⟩
    some (Vector.ofFn fun i : Fin n => Vector.ofFn fun j : Fin n =>
      have bound : i * n + j < n * n :=
        calc
          i * n + j < i * n + n := Nat.add_lt_add_left j.isLt _
          _ = (i + 1) * n := (Nat.succ_mul ..).symm
          _ ≤ n * n := Nat.mul_le_mul_right n i.isLt
      v[i * n + j])
  else none

@[simp] theorem toVector?_ofVector (v : Vector α n) : (ofVector v).toVector? n = some v := by
  simp [toVector?, ofVector]

@[simp] theorem toMatrix?_ofMatrix (A : SquareMatrix α n) :
    (ofMatrix A).toMatrix? n = some A := by
  simp only [toMatrix?, ofMatrix, ↓reduceDIte, Option.some.injEq]
  ext i hi j hj
  have hn : 0 < n := by omega
  simp [Vector.getElem_flatten, Nat.mul_add_div hn, Nat.mul_comm i n, Nat.div_eq_of_lt hj,
    Nat.mod_eq_of_lt hj]

/-- The tensor with every entry changed. -/
def map (f : α → β) (t : Tensor α) : Tensor β :=
  ⟨t.shape, t.entries.map f, by simp [t.size_eq]⟩

/-- The tensor with its entries changed all at once. -/
def mapEntries? (f : Array α → Array β) (t : Tensor α) : Option (Tensor β) :=
  ofArray? t.shape (f t.entries)

/-- The tensor repeated along a larger shape. -/
def stretch [Inhabited α] (t : Tensor α) (target : Shape) : Tensor α :=
  { shape := target
    entries := Array.ofFn fun k : Fin target.size =>
      t.entries.getD (Shape.sourceReversed t.shape.reverse target.reverse k) default
    size_eq := by simp }

/-- Two tensors combined entry by entry, unless their shapes disagree. -/
def zip? [Inhabited α] [Inhabited β] (f : α → β → γ) (s : Tensor α) (t : Tensor β) :
    Option (Tensor γ) :=
  (Shape.combine? s.shape t.shape).map fun shape =>
    let s := s.stretch shape
    let t := t.stretch shape
    { shape := shape
      entries := Array.ofFn fun k : Fin shape.size =>
        f (s.entries.getD k default) (t.entries.getD k default)
      size_eq := by simp }

/-- Tensors of one shape along a new first axis, unless their shapes differ. -/
def stack? (ts : List (Tensor α)) : Option (Tensor α) :=
  match ts with
  | [] => some ⟨[0], #[], rfl⟩
  | t :: _ =>
    if ts.all fun u => u.shape = t.shape then
      ofArray? (ts.length :: t.shape) (ts.foldl (fun a u => a ++ u.entries) #[])
    else none

/-- The part at index `i` of the first axis; beyond the end it is the last one. There is
none if the tensor is a single number or has no part. -/
def part? (t : Tensor α) (i : Nat) : Option (Tensor α) :=
  match t.shape with
  | [] => none
  | 0 :: _ => none
  | (d + 1) :: inner =>
    let width := Shape.size inner
    let start := min i d * width
    ofArray? inner (t.entries.extract start (start + width))

/-- The part at index `i` of the first axis; there is none beyond the end. -/
def exactPart? (t : Tensor α) (i : Nat) : Option (Tensor α) :=
  match t.shape with
  | [] => none
  | d :: _ => if i < d then t.part? i else none

/-- The parts with indices from `start` to below `stop`, as far as there are any. -/
def slice? (t : Tensor α) (start stop : Nat) : Option (Tensor α) :=
  match t.shape with
  | [] => none
  | d :: inner =>
    let width := Shape.size inner
    let first := min start d
    let last := max first (min stop d)
    ofArray? ((last - first) :: inner) (t.entries.extract (first * width) (last * width))

/-- The columns of a tensor along its first axis, changed by a function of vectors; there
are none if the axis does not have length `n`. -/
def mapColumns? [Inhabited α] [Inhabited β] {m : Nat} (f : Vector α n → Vector β m)
    (t : Tensor α) : Option (Tensor β) :=
  match t.shape with
  | [] => none
  | d :: inner =>
    if d = n then
      let width := Shape.size inner
      let column (k : Nat) : Vector α n :=
        Vector.ofFn fun i : Fin n => t.entries.getD (i * width + k) default
      let columns := (Array.range width).map fun k => f (column k)
      ofArray? (m :: inner) (Array.ofFn fun p : Fin (m * width) =>
        (columns[(p : Nat) % width]?.bind fun v => v[(p : Nat) / width]?).getD default)
    else none

end Tensor

end Stationary
