import Stationary.Scalar

/-!
# Vectors and square matrices

A vector has its length in its type, a square matrix is the vector of its rows. The
module holds the few operations that the iteration needs : sums of products, the
Euclidean norm, the finiteness of all entries, a first entry put in front
(`Vec.cons`, read back by `Vec.head_cons` and `Vec.rest_cons`).
-/

namespace Stationary

/-- A square matrix, as the vector of its rows. -/
abbrev SquareMatrix (α : Type) (n : Nat) := Vector (Vector α n) n

namespace Vec

variable {α : Type} {n : Nat}

/-- The vector with `x` in front of `v`. -/
def cons (x : α) (v : Vector α n) : Vector α (n + 1) :=
  Vector.ofFn fun i => Fin.cases x (fun j => v[j]) i

/-- The first entry. -/
def head (v : Vector α (n + 1)) : α :=
  v.get ⟨0, Nat.succ_pos n⟩

/-- The vector without its first entry. -/
def rest (v : Vector α (n + 1)) : Vector α n :=
  Vector.ofFn fun i : Fin n => v[i.succ]

theorem ext_get {u v : Vector α n} (h : ∀ i, u.get i = v.get i) : u = v := by
  ext i hi
  exact h ⟨i, hi⟩

theorem get_map {β : Type} (f : α → β) (v : Vector α n) (i : Fin n) :
    (v.map f).get i = f (v.get i) :=
  Vector.getElem_map f i.isLt

theorem get_zipWith {β γ : Type} (f : α → β → γ) (u : Vector α n) (v : Vector β n) (i : Fin n) :
    (Vector.zipWith f u v).get i = f (u.get i) (v.get i) :=
  Vector.getElem_zipWith i.isLt

@[simp] theorem getElem_cons_zero (x : α) (v : Vector α n) : (cons x v)[0] = x := by
  simp [cons]

@[simp] theorem getElem_cons_succ (x : α) (v : Vector α n) (i : Nat) (hi : i + 1 < n + 1) :
    (cons x v)[i + 1] = v[i] := by
  simp only [cons, Vector.getElem_ofFn]
  rfl

theorem head_eq_getElem (v : Vector α (n + 1)) : head v = v[0] := rfl

@[simp] theorem head_cons (x : α) (v : Vector α n) : head (cons x v) = x := by
  rw [head_eq_getElem, getElem_cons_zero]

@[simp] theorem getElem_rest (v : Vector α (n + 1)) (i : Nat) (hi : i < n) :
    (rest v)[i] = v[i + 1] := by
  simp [rest]

@[simp] theorem rest_cons (x : α) (v : Vector α n) : rest (cons x v) = v := by
  ext i hi
  simp

theorem get_cons_zero (x : α) (v : Vector α n) : (cons x v).get 0 = x :=
  getElem_cons_zero x v

theorem get_cons_succ (x : α) (v : Vector α n) (i : Fin n) : (cons x v).get i.succ = v.get i :=
  getElem_cons_succ x v i _

theorem get_rest (v : Vector α (n + 1)) (i : Fin n) : (rest v).get i = v.get i.succ :=
  getElem_rest v i i.isLt

theorem cons_head_rest (v : Vector α (n + 1)) : cons (head v) (rest v) = v := by
  ext i hi
  cases i with
  | zero => simp [head_eq_getElem]
  | succ i => simp

theorem eq_cons_iff {v : Vector α (n + 1)} {x : α} {w : Vector α n} :
    v = cons x w ↔ head v = x ∧ rest v = w := by
  constructor
  · rintro rfl
    exact ⟨head_cons x w, rest_cons x w⟩
  · rintro ⟨rfl, rfl⟩
    exact (cons_head_rest v).symm

variable [Scalar α]

/-- The sum of the entries : the first one, and the others added to it in order. -/
def sum (v : Vector α n) : α :=
  match v.toList with
  | [] => 0
  | x :: xs => xs.foldl (· + ·) x

/-- The sum of the products of the entries. -/
def dot (u v : Vector α n) : α :=
  sum (Vector.zipWith (· * ·) u v)

/-- The sum of the squares of the entries. -/
def sumSquares (v : Vector α n) : α :=
  dot v v

/-- The Euclidean norm. Of a single entry it is the magnitude, which unlike a square
neither overflows nor vanishes. -/
def norm (v : Vector α n) : α :=
  if h : n = 1 then Scalar.abs v[0] else Scalar.sqrt (sumSquares v)

/-- All entries are finite. -/
def allFinite (v : Vector α n) : Bool :=
  v.all Scalar.isFinite

theorem allFinite_eq_false_iff {v : Vector α n} :
    allFinite v = false ↔ ∃ i, Scalar.isFinite (v.get i) = false := by
  unfold allFinite
  rw [Vector.all_eq_false]
  constructor
  · rintro ⟨i, hi, h⟩
    have hget : Scalar.isFinite v[i] = false := by simpa using h
    exact ⟨⟨i, hi⟩, hget⟩
  · rintro ⟨i, h⟩
    have hget : Scalar.isFinite v[i.val] = false := h
    exact ⟨i, i.isLt, by simp [hget]⟩

theorem allFinite_eq_true_iff {v : Vector α n} :
    allFinite v = true ↔ ∀ i, Scalar.isFinite (v.get i) = true := by
  constructor
  · intro h i
    exact Vector.all_eq_true.1 h i i.isLt
  · intro h
    exact Vector.all_eq_true.2 fun i hi => h ⟨i, hi⟩

theorem allFinite_cons_iff {x : α} {v : Vector α n} :
    allFinite (cons x v) = true ↔ Scalar.isFinite x = true ∧ allFinite v = true := by
  simp only [allFinite_eq_true_iff]
  constructor
  · intro h
    refine ⟨?_, fun i => ?_⟩
    · rw [← get_cons_zero x v]
      exact h 0
    · rw [← get_cons_succ x v i]
      exact h i.succ
  · rintro ⟨hx, hv⟩ i
    cases i using Fin.cases with
    | zero => exact (get_cons_zero x v).symm ▸ hx
    | succ i => exact (get_cons_succ x v i).symm ▸ hv i

/-- The sum of two vectors. -/
def add (u v : Vector α n) : Vector α n :=
  Vector.zipWith (· + ·) u v

theorem get_add (u v : Vector α n) (i : Fin n) : (add u v).get i = u.get i + v.get i :=
  get_zipWith ..

/-- The vector with every entry negated. -/
def neg (v : Vector α n) : Vector α n :=
  v.map (- ·)

theorem get_neg (v : Vector α n) (i : Fin n) : (neg v).get i = -v.get i :=
  Vector.getElem_map _ i.isLt

end Vec

end Stationary
