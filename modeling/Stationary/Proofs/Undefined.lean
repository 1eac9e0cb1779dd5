import Mathlib
import Stationary.Projection
import Stationary.Rotations
import Stationary.Proofs.Regularity

/-!
# Exact arithmetic with an undefined number

Over a field, division by zero has the value zero. `WithUndefined` adds an undefined number to
an ordered field, which is what a division by zero and the root of a negative number give; it
is not finite, it is the result of every operation that it enters, and it compares false
with everything. On numbers of the field the operations are those of the field, so vectors
of numbers (`Vec.numbers`) are mapped to vectors of numbers by everything but a division.

Two facts about linear steps need this arithmetic. Elimination divides by every pivot on the
way up, so a solution without undefined entries has no zero pivot, whatever the threshold
is (`pivots_ne_zero_of_allFinite`). And the rotations that make up a singular value
decomposition only divide by numbers that are not zero, so a step of least squares has no
undefined entries (`allFinite_solve_svdByRotations`).
-/

set_option linter.unusedSectionVars false

namespace Stationary

/-- A number of a field, or an undefined one. -/
inductive WithUndefined (𝕜 : Type)
  | number (x : 𝕜)
  | undefined

namespace WithUndefined

variable {𝕜 : Type}

/-- A function of one number. -/
def map (f : 𝕜 → 𝕜) : WithUndefined 𝕜 → WithUndefined 𝕜
  | number x => number (f x)
  | undefined => undefined

/-- A function of two numbers. -/
def map₂ (f : 𝕜 → 𝕜 → 𝕜) : WithUndefined 𝕜 → WithUndefined 𝕜 → WithUndefined 𝕜
  | number x, number y => number (f x y)
  | _, _ => undefined

/-- A relation of two numbers. -/
def relates (r : 𝕜 → 𝕜 → Bool) : WithUndefined 𝕜 → WithUndefined 𝕜 → Bool
  | number x, number y => r x y
  | _, _ => false

/-- The number is not the undefined one. -/
def isNumber : WithUndefined 𝕜 → Bool
  | number _ => true
  | undefined => false

variable [ExactArithmetic 𝕜]

/-- The quotient of two numbers. -/
def quotient : WithUndefined 𝕜 → WithUndefined 𝕜 → WithUndefined 𝕜
  | number x, number y => if y = 0 then undefined else number (x / y)
  | _, _ => undefined

/-- The root of a number. -/
def root : WithUndefined 𝕜 → WithUndefined 𝕜
  | number x => if 0 ≤ x then number (ExactArithmetic.root x) else undefined
  | undefined => undefined

instance : Scalar (WithUndefined 𝕜) where
  zero := number 0
  one := number 1
  add := map₂ (· + ·)
  sub := map₂ (· - ·)
  mul := map₂ (· * ·)
  div := quotient
  neg := map (- ·)
  abs := map (|·|)
  sqrt := root
  max := map₂ max
  lt := relates fun x y => decide (x < y)
  le := relates fun x y => decide (x ≤ y)
  isFinite := isNumber
  eps := number ExactArithmetic.roundoff
  ofNat n := number n

theorem number_zero : number (0 : 𝕜) = 0 := rfl

theorem number_one : number (1 : 𝕜) = 1 := rfl

theorem number_add (x y : 𝕜) : number x + number y = number (x + y) := rfl

theorem number_sub (x y : 𝕜) : number x - number y = number (x - y) := rfl

theorem number_mul (x y : 𝕜) : number x * number y = number (x * y) := rfl

theorem number_neg (x : 𝕜) : -number x = number (-x) := rfl

theorem number_div {x y : 𝕜} (h : y ≠ 0) : number x / number y = number (x / y) :=
  if_neg h

theorem number_abs (x : 𝕜) : Scalar.abs (number x) = number |x| := rfl

theorem number_sqrt {x : 𝕜} (h : 0 ≤ x) :
    Scalar.sqrt (number x) = number (ExactArithmetic.root x) :=
  if_pos h

theorem number_lt (x y : 𝕜) : Scalar.lt (number x) (number y) = decide (x < y) := rfl

theorem exists_number {x : WithUndefined 𝕜} (h : Scalar.isFinite x = true) :
    ∃ a, x = number a := by
  cases x with
  | number a => exact ⟨a, rfl⟩
  | undefined => cases h

theorem isFinite_mul {x y : WithUndefined 𝕜} (h : Scalar.isFinite (x * y) = true) :
    Scalar.isFinite x = true ∧ Scalar.isFinite y = true := by
  cases x <;> cases y <;> first | exact ⟨rfl, rfl⟩ | cases h

/-- Only a number that is not zero has an inverse. -/
theorem exists_number_of_inverse {x : WithUndefined 𝕜} (h : Scalar.isFinite (1 / x) = true) :
    ∃ a, a ≠ 0 ∧ x = number a := by
  cases x with
  | undefined => cases h
  | number a =>
    refine ⟨a, fun h0 => ?_, rfl⟩
    have hundefined : (1 : WithUndefined 𝕜) / number a = undefined := if_pos h0
    rw [hundefined] at h
    cases h

end WithUndefined

open WithUndefined

variable {𝕜 : Type} {n : Nat} [ExactArithmetic 𝕜]

/-! ## Vectors of numbers -/

namespace Vec

/-- The vector with the same entries, as numbers that might be undefined. -/
def numbers {m : Nat} (v : Vector 𝕜 m) : Vector (WithUndefined 𝕜) m :=
  v.map number

theorem get_numbers (v : Vector 𝕜 n) (i : Fin n) : (numbers v).get i = number (v.get i) :=
  get_map number v i

theorem getElem_numbers (v : Vector 𝕜 n) (i : Nat) (hi : i < n) :
    (numbers v)[i] = number v[i] :=
  Vector.getElem_map number hi

@[simp] theorem allFinite_numbers (v : Vector 𝕜 n) : allFinite (numbers v) = true := by
  unfold allFinite
  rw [Vector.all_eq_true]
  intro i hi
  rw [getElem_numbers]
  rfl

/-- A vector without undefined entries is one of numbers. -/
theorem exists_numbers {v : Vector (WithUndefined 𝕜) n} (h : allFinite v = true) :
    ∃ u, v = numbers u := by
  have hentry : ∀ i, ∃ a, v.get i = number a :=
    fun i => exists_number (Vector.all_eq_true.1 h i i.isLt)
  choose u hu using hentry
  refine ⟨Vector.ofFn u, ext_get fun i => ?_⟩
  rw [hu, get_numbers, Vector.get_ofFn]

theorem head_numbers (v : Vector 𝕜 (n + 1)) : head (numbers v) = number (head v) :=
  get_numbers v 0

theorem rest_numbers (v : Vector 𝕜 (n + 1)) : rest (numbers v) = numbers (rest v) :=
  ext_get fun i => by rw [get_rest, get_numbers, get_numbers, get_rest]

/-- A function of two numbers applied to vectors of numbers. -/
theorem zipWith_numbers {f : WithUndefined 𝕜 → WithUndefined 𝕜 → WithUndefined 𝕜}
    {g : 𝕜 → 𝕜 → 𝕜} (h : ∀ x y, f (number x) (number y) = number (g x y)) (u v : Vector 𝕜 n) :
    Vector.zipWith f (numbers u) (numbers v) = numbers (Vector.zipWith g u v) := by
  ext i hi
  rw [Vector.getElem_zipWith, getElem_numbers, getElem_numbers, getElem_numbers, h,
    Vector.getElem_zipWith]

theorem sum_numbers (v : Vector 𝕜 n) : sum (numbers v) = number (sum v) := by
  have hfold : ∀ (l : List 𝕜) (x : 𝕜),
      (l.map number).foldl (· + ·) (number x) = number (l.foldl (· + ·) x) := by
    intro l
    induction l with
    | nil => exact fun x => rfl
    | cons y l ih => exact fun x => ih (x + y)
  unfold sum numbers
  rw [Vector.toList_map]
  cases v.toList with
  | nil => rfl
  | cons x xs => exact hfold xs x

theorem dot_numbers (u v : Vector 𝕜 n) : dot (numbers u) (numbers v) = number (dot u v) := by
  unfold dot
  rw [zipWith_numbers (g := (· * ·)) number_mul, sum_numbers]

theorem sumSquares_numbers (v : Vector 𝕜 n) :
    sumSquares (numbers v) = number (sumSquares v) :=
  dot_numbers v v

theorem sumSquares_nonneg (v : Vector 𝕜 n) : 0 ≤ sumSquares v := by
  unfold sumSquares
  rw [dot_eq, dotProduct]
  exact Finset.sum_nonneg fun i _ => mul_self_nonneg (v.get i)

theorem norm_numbers (v : Vector 𝕜 n) : norm (numbers v) = number (norm v) := by
  unfold norm
  split
  · rename_i h
    subst h
    rw [getElem_numbers, number_abs]
    rfl
  · rw [sumSquares_numbers, number_sqrt (sumSquares_nonneg v)]
    rfl

theorem add_numbers (u v : Vector 𝕜 n) : add (numbers u) (numbers v) = numbers (add u v) :=
  zipWith_numbers number_add u v

theorem neg_numbers (v : Vector 𝕜 n) : neg (numbers v) = numbers (neg v) :=
  ext_get fun i => by rw [get_neg, get_numbers, get_numbers, get_neg, number_neg]

end Vec

theorem clamp_numbers (mask : Vector Bool n) (v : Vector 𝕜 n) :
    clamp mask (Vec.numbers v) = Vec.numbers (clamp mask v) := by
  refine Vec.ext_get fun i => ?_
  rw [get_clamp, Vec.get_numbers, Vec.get_numbers, get_clamp, apply_ite number]
  rfl

/-- The rows of numbers. -/
def SquareMatrix.numbers {m : Nat} (A : Vector (Vector 𝕜 n) m) :
    Vector (Vector (WithUndefined 𝕜) n) m :=
  A.map Vec.numbers

/-! ## Elimination -/

theorem bringToTop_map {β γ : Type} (f : β → γ) (i : Fin (n + 1)) (v : Vector β (n + 1)) :
    bringToTop i (v.map f) = (bringToTop i v).map f :=
  Vec.ext_get fun j => by
    rw [get_bringToTop, Vec.get_map, Vec.get_map, get_bringToTop]

/-- The place of the pivot does not depend on whether numbers might be undefined. -/
theorem pivotIndex_numbers (column : Vector 𝕜 (n + 1)) :
    pivotIndex (Vec.numbers column) = pivotIndex column := by
  unfold pivotIndex
  congr 1
  funext best i
  rw [Vec.get_numbers, Vec.get_numbers, number_abs, number_abs, number_lt]
  rfl

theorem heads_numbers (A : SquareMatrix 𝕜 (n + 1)) :
    (SquareMatrix.numbers A).map Vec.head = Vec.numbers (A.map Vec.head) :=
  Vec.ext_get fun i => by
    rw [SquareMatrix.numbers, Vec.get_map, Vec.get_map, Vec.head_numbers, Vec.get_numbers,
      Vec.get_map]

theorem multipliers_numbers {pivot : 𝕜} (hp : pivot ≠ 0) (rows : Vector (Vector 𝕜 (n + 1)) n) :
    multipliers (number pivot) (SquareMatrix.numbers rows) =
      Vec.numbers (multipliers pivot rows) := by
  have hinverse : (1 : WithUndefined 𝕜) / number pivot = number (1 / pivot) := number_div hp
  refine Vec.ext_get fun i => ?_
  unfold multipliers SquareMatrix.numbers
  rw [Vec.get_map, Vec.get_map, Vec.get_numbers, Vec.get_map, Vec.head_numbers, hinverse,
    number_mul]

theorem eliminate_numbers (upper lower : Vector 𝕜 n) (rows : Vector (Vector 𝕜 (n + 1)) n) :
    eliminate (Vec.numbers upper) (Vec.numbers lower) (SquareMatrix.numbers rows) =
      SquareMatrix.numbers (eliminate upper lower rows) := by
  refine Vec.ext_get fun i => ?_
  simp only [eliminate, SquareMatrix.numbers, Vector.get_eq_getElem, Vector.getElem_zipWith,
    Vector.getElem_map, Vec.getElem_numbers, Vec.rest_numbers]
  exact Vec.zipWith_numbers (fun x y => rfl) _ _

/-- The first layer of a matrix of numbers, which need not have numbers as multipliers : the pivot
may be zero. -/
theorem factor_numbers_succ (A : SquareMatrix 𝕜 (n + 1)) :
    factor (SquareMatrix.numbers A) =
      let row := pivotIndex (A.map Vec.head)
      let top := Vec.head (bringToTop row A)
      let lower := multipliers (number (Vec.head top))
        (SquareMatrix.numbers (Vec.rest (bringToTop row A)))
      .layer row (number (Vec.head top)) (Vec.numbers (Vec.rest top)) lower
        (factor (eliminate (Vec.numbers (Vec.rest top)) lower
          (SquareMatrix.numbers (Vec.rest (bringToTop row A))))) := by
  have hrow : pivotIndex ((SquareMatrix.numbers A).map Vec.head) = pivotIndex (A.map Vec.head) := by
    rw [heads_numbers, pivotIndex_numbers]
  have htop : Vec.head (bringToTop (pivotIndex (A.map Vec.head)) (SquareMatrix.numbers A)) =
      Vec.numbers (Vec.head (bringToTop (pivotIndex (A.map Vec.head)) A)) := by
    rw [SquareMatrix.numbers, bringToTop_map]
    exact Vec.get_map Vec.numbers _ 0
  have hrows : Vec.rest (bringToTop (pivotIndex (A.map Vec.head)) (SquareMatrix.numbers A)) =
      SquareMatrix.numbers (Vec.rest (bringToTop (pivotIndex (A.map Vec.head)) A)) := by
    rw [SquareMatrix.numbers, bringToTop_map]
    exact Vec.ext_get fun i => by
      rw [Vec.get_rest, Vec.get_map, SquareMatrix.numbers, Vec.get_map, Vec.get_rest]
  simp only [factor, hrow, htop, hrows, Vec.head_numbers, Vec.rest_numbers]

/-- Where elimination finds a solution without undefined entries, no pivot is zero : on the way
up every pivot is divided by. -/
theorem pivots_ne_zero_of_allFinite {A : SquareMatrix 𝕜 n} {b : Vector (WithUndefined 𝕜) n}
    (h : Vec.allFinite ((factor (SquareMatrix.numbers A)).solve b) = true) :
    ∀ p ∈ (factor A).pivots, p ≠ 0 := by
  induction n with
  | zero =>
    intro p hp
    cases hp
  | succ n ih =>
    let top := Vec.head (bringToTop (pivotIndex (A.map Vec.head)) A)
    rw [factor_numbers_succ] at h
    obtain ⟨hfirst, hrest⟩ := Vec.allFinite_cons_iff.1 h
    obtain ⟨pivot, hpivot, hp⟩ := exists_number_of_inverse (isFinite_mul hfirst).2
    obtain rfl : Vec.head top = pivot := number.inj hp
    rw [multipliers_numbers hpivot, eliminate_numbers] at hrest
    intro p hp
    rcases List.mem_cons.1 hp with rfl | hp
    · exact abs_ne_zero.2 hpivot
    · exact ih hrest p hp

/-! ## Least squares -/

/-- The root of a number that is not negative is one that is not negative, and its square is the
number. -/
class ExactRoots (𝕜 : Type) [ExactArithmetic 𝕜] : Prop where
  root_nonneg {x : 𝕜} : 0 ≤ x → 0 ≤ ExactArithmetic.root x
  root_mul_root {x : 𝕜} : 0 ≤ x → ExactArithmetic.root x * ExactArithmetic.root x = x

/-- The matrix need not be scaled. -/
instance : Binade (WithUndefined 𝕜) := ⟨fun _ => 1⟩

instance : Decomposes (WithUndefined 𝕜) := ⟨svdByRotations⟩

variable [ExactRoots 𝕜]

theorem ExactRoots.root_pos {x : 𝕜} (h : 0 < x) : 0 < ExactArithmetic.root x := by
  refine (root_nonneg h.le).lt_of_ne fun h0 => h.ne ?_
  rw [← root_mul_root h.le, ← h0, mul_zero]

/-- The rotation of two columns that are not orthogonal divides by no zero. -/
theorem exists_rotationOf {pq : 𝕜} (hpq : pq ≠ 0) (pp qq : 𝕜) :
    ∃ c s, rotationOf (number pp) (number qq) (number pq) = (number c, number s) := by
  have hdouble : pq + pq ≠ 0 := by
    rw [← two_mul]
    exact mul_ne_zero two_ne_zero hpq
  obtain ⟨z, hz⟩ : ∃ z, number (qq - pp) / number (pq + pq) = number z :=
    ⟨_, number_div hdouble⟩
  have hpositive : ∀ x : 𝕜, 0 < 1 + x * x := fun x =>
    add_pos_of_pos_of_nonneg one_pos (mul_self_nonneg x)
  have hsqrt : ∀ x : 𝕜, Scalar.sqrt (1 + number x * number x) =
      number (ExactArithmetic.root (1 + x * x)) := fun x => number_sqrt (hpositive x).le
  have hroot : |z| + ExactArithmetic.root (1 + z * z) ≠ 0 :=
    (add_pos_of_nonneg_of_pos (abs_nonneg z) (ExactRoots.root_pos (hpositive z))).ne'
  have hinverse : (1 : WithUndefined 𝕜) / number (|z| + ExactArithmetic.root (1 + z * z)) =
      number (1 / (|z| + ExactArithmetic.root (1 + z * z))) := number_div hroot
  obtain ⟨t, ht⟩ : ∃ t, (if Scalar.lt (number z) 0 = true then
      -(1 / number (|z| + ExactArithmetic.root (1 + z * z)))
      else 1 / number (|z| + ExactArithmetic.root (1 + z * z))) = number t := by
    rw [hinverse]
    split
    · exact ⟨_, rfl⟩
    · exact ⟨_, rfl⟩
  refine ⟨1 / ExactArithmetic.root (1 + t * t), 1 / ExactArithmetic.root (1 + t * t) * t, ?_⟩
  unfold rotationOf
  simp only [number_sub, number_add, hz, number_abs, hsqrt, ht]
  rw [← number_one, number_div (ExactRoots.root_pos (hpositive t)).ne', number_mul]

/-- Two columns of numbers are rotated by numbers. -/
theorem exists_rotation {p q : Vector 𝕜 n} {r : WithUndefined 𝕜 × WithUndefined 𝕜}
    (h : rotation? (Vec.numbers p) (Vec.numbers q) = some r) :
    ∃ c s, r = (number c, number s) := by
  have hp := Vec.sumSquares_nonneg p
  have hq := Vec.sumSquares_nonneg q
  simp only [rotation?, Vec.sumSquares_numbers, Vec.dot_numbers, number_sqrt hp, number_sqrt hq,
    number_abs] at h
  split at h
  · rename_i hlt
    have hne : Vec.dot p q ≠ 0 := by
      rw [← abs_pos]
      refine lt_of_le_of_lt ?_ (of_decide_eq_true hlt)
      exact mul_nonneg ExactArithmetic.roundoff_nonneg
        (mul_nonneg (ExactRoots.root_nonneg hp) (ExactRoots.root_nonneg hq))
    obtain ⟨c, s, hcs⟩ := exists_rotationOf hne (Vec.sumSquares p) (Vec.sumSquares q)
    exact ⟨c, s, (Option.some.inj h).symm.trans hcs⟩
  · cases h

theorem combine_numbers (c s : 𝕜) (u v : Vector 𝕜 n) :
    combine (number c) (number s) (Vec.numbers u) (Vec.numbers v) =
      Vec.numbers (combine c s u v) :=
  Vec.zipWith_numbers (fun _ _ => rfl) u v

/-- Image and source of a column have no undefined entries. -/
def RotatedColumn.IsDefined (c : RotatedColumn (WithUndefined 𝕜) n) : Prop :=
  Vec.allFinite c.image = true ∧ Vec.allFinite c.source = true

theorem RotatedColumn.IsDefined.combine {p q : RotatedColumn (WithUndefined 𝕜) n} (c s : 𝕜)
    (hp : p.IsDefined) (hq : q.IsDefined) :
    IsDefined ⟨Stationary.combine (number c) (number s) p.image q.image,
      Stationary.combine (number c) (number s) p.source q.source⟩ := by
  obtain ⟨pi, hpi⟩ := Vec.exists_numbers hp.1
  obtain ⟨ps, hps⟩ := Vec.exists_numbers hp.2
  obtain ⟨qi, hqi⟩ := Vec.exists_numbers hq.1
  obtain ⟨qs, hqs⟩ := Vec.exists_numbers hq.2
  constructor
  · simp only [hpi, hqi, combine_numbers, Vec.allFinite_numbers]
  · simp only [hps, hqs, combine_numbers, Vec.allFinite_numbers]

/-- One pair of columns made orthogonal stays defined. -/
theorem isDefined_rotatePair {i j : Fin n}
    {state : Vector (RotatedColumn (WithUndefined 𝕜) n) n × Bool}
    (h : ∀ k, (state.1.get k).IsDefined) (k : Fin n) :
    ((rotatePair i j state).1.get k).IsDefined := by
  obtain ⟨p, hp⟩ := Vec.exists_numbers (h i).1
  obtain ⟨q, hq⟩ := Vec.exists_numbers (h j).1
  unfold rotatePair
  simp only
  split
  · exact h k
  · rename_i c s hrotation
    rw [hp, hq] at hrotation
    obtain ⟨a, b, hab⟩ := exists_rotation hrotation
    obtain ⟨rfl, rfl⟩ := Prod.mk.inj hab
    simp only [Vector.get_eq_getElem, Vector.getElem_set]
    split
    · exact (h i).combine b a (h j)
    · split
      · exact (h i).combine a (-b) (h j)
      · exact h k

/-- A sweep keeps all columns defined. -/
theorem isDefined_sweep {state : Vector (RotatedColumn (WithUndefined 𝕜) n) n}
    (h : ∀ k, (state.get k).IsDefined) (k : Fin n) : ((sweep state).1.get k).IsDefined := by
  refine List.foldlRecOn (motive := fun s : Vector (RotatedColumn (WithUndefined 𝕜) n) n × Bool =>
    ∀ k, (s.1.get k).IsDefined) _ _ h (fun s hs i _ => ?_) k
  refine List.foldlRecOn (motive := fun s : Vector (RotatedColumn (WithUndefined 𝕜) n) n × Bool =>
    ∀ k, (s.1.get k).IsDefined) _ _ hs (fun s hs j _ => ?_)
  split
  · exact isDefined_rotatePair hs
  · exact hs

theorem isDefined_sweeps (fuel : Nat) {state : Vector (RotatedColumn (WithUndefined 𝕜) n) n}
    (h : ∀ k, (state.get k).IsDefined) (k : Fin n) :
    ((sweeps fuel state).get k).IsDefined := by
  induction fuel generalizing state with
  | zero => exact h k
  | succ fuel ih =>
    have hsweep := isDefined_sweep h
    unfold sweeps
    split
    · rename_i next hnext
      rw [hnext] at hsweep
      exact ih hsweep
    · rename_i next hnext
      rw [hnext] at hsweep
      exact hsweep k

omit [ExactRoots 𝕜] in
/-- The columns of a matrix of numbers, with unit vectors as sources, are defined. -/
theorem isDefined_start (A : SquareMatrix 𝕜 n) (j : Fin n) :
    RotatedColumn.IsDefined
      { image := ((columns (SquareMatrix.numbers A)).get j).map (· / (1 : WithUndefined 𝕜))
        source := Vector.ofFn fun i : Fin n => if i = j then 1 else 0 } := by
  refine ⟨Vec.allFinite_eq_true_iff.2 fun i => ?_, Vec.allFinite_eq_true_iff.2 fun i => ?_⟩
  · have hentry : ((columns (SquareMatrix.numbers A)).get j).get i = number ((A.get i).get j) := by
      rw [columns, Vector.get_ofFn, Vec.get_map, SquareMatrix.numbers, Vec.get_map,
        Vec.get_numbers]
    rw [Vec.get_map, hentry, ← number_one, number_div one_ne_zero]
    rfl
  · rw [Vector.get_ofFn]
    split
    · rfl
    · rfl

/-- No number of a decomposition is undefined. -/
structure Svd.IsDefined (d : Svd (WithUndefined 𝕜) n) : Prop where
  left : ∀ i, Vec.allFinite (d.left.get i) = true
  values : Vec.allFinite d.values = true
  right : ∀ i, Vec.allFinite (d.right.get i) = true

omit [ExactRoots 𝕜] in
/-- What is read off columns without undefined entries : the columns divided by those of their
lengths that are positive, the lengths, and the sources. -/
theorem Svd.isDefined_of_columns {final : Vector (RotatedColumn (WithUndefined 𝕜) n) n}
    (h : ∀ k, (final.get k).IsDefined) : Svd.IsDefined
      { left := Vector.zipWith
          (fun c s => c.image.map fun x => if Scalar.lt 0 s then x / s else x) final
          (final.map fun c => Vec.norm c.image)
        values := (final.map fun c => Vec.norm c.image).map (· * 1)
        right := final.map (·.source) } := by
  have hnorm : ∀ i, ∃ u, (final.get i).image = Vec.numbers u ∧
      (final.map fun c => Vec.norm c.image).get i = number (Vec.norm u) := fun i => by
    obtain ⟨u, hu⟩ := Vec.exists_numbers (h i).1
    exact ⟨u, hu, by rw [Vec.get_map, hu, Vec.norm_numbers]⟩
  constructor
  · intro i
    obtain ⟨u, hu, hlength⟩ := hnorm i
    have hcolumn : (Vector.zipWith (fun (c : RotatedColumn (WithUndefined 𝕜) n) s =>
          c.image.map fun x => if Scalar.lt 0 s then x / s else x) final
          (final.map fun c => Vec.norm c.image)).get i =
        (final.get i).image.map fun x =>
          if Scalar.lt 0 ((final.map fun c => Vec.norm c.image).get i) then
            x / (final.map fun c => Vec.norm c.image).get i else x :=
      Vector.getElem_zipWith i.isLt
    refine Vec.allFinite_eq_true_iff.2 fun j => ?_
    rw [hcolumn, hu, hlength, Vec.get_map, Vec.get_numbers]
    split
    · rename_i hpos
      rw [number_div (of_decide_eq_true hpos : (0 : 𝕜) < Vec.norm u).ne']
      rfl
    · rfl
  · refine Vec.allFinite_eq_true_iff.2 fun i => ?_
    obtain ⟨u, -, hlength⟩ := hnorm i
    rw [Vec.get_map, hlength]
    rfl
  · intro i
    rw [Vec.get_map]
    exact (h i).2

/-- Rotations take a matrix of numbers apart into numbers. -/
theorem isDefined_svdByRotations (A : SquareMatrix 𝕜 n) :
    (svdByRotations (SquareMatrix.numbers A)).IsDefined :=
  Svd.isDefined_of_columns (isDefined_sweeps 60 fun k => by
    rw [Vector.get_ofFn]
    exact isDefined_start A k)

omit [ExactRoots 𝕜] in
/-- A weight is zero or the inverse of a positive number. -/
theorem Svd.isFinite_weight (d : Svd (WithUndefined 𝕜) n) (s : 𝕜) :
    Scalar.isFinite (d.weight (number s)) = true := by
  unfold Svd.weight
  split
  · rename_i h
    have hpos : 0 < s := of_decide_eq_true (Bool.and_eq_true_iff.1 h).1
    rw [← number_one, number_div hpos.ne']
    rfl
  · rfl

omit [ExactRoots 𝕜] in
theorem Svd.IsDefined.allFinite_solve {d : Svd (WithUndefined 𝕜) n} (h : d.IsDefined)
    (b : Vector 𝕜 n) : Vec.allFinite (d.solve (Vec.numbers b)) = true := by
  have hcoordinates : Vec.allFinite (d.coordinates (Vec.numbers b)) = true := by
    refine Vec.allFinite_eq_true_iff.2 fun i => ?_
    obtain ⟨s, hs⟩ := exists_number (Vec.allFinite_eq_true_iff.1 h.values i)
    obtain ⟨u, hu⟩ := Vec.exists_numbers (h.left i)
    obtain ⟨w, hw⟩ := exists_number (d.isFinite_weight s)
    have hentry : (d.coordinates (Vec.numbers b)).get i =
        d.weight (d.values.get i) * Vec.dot (d.left.get i) (Vec.numbers b) :=
      Vector.getElem_zipWith i.isLt
    rw [hentry, hs, hu, hw, Vec.dot_numbers, number_mul]
    rfl
  obtain ⟨c, hc⟩ := Vec.exists_numbers hcoordinates
  refine Vec.allFinite_eq_true_iff.2 fun i => ?_
  obtain ⟨v, hv⟩ : ∃ v, d.right.map (fun v => v.get i) = Vec.numbers v := by
    refine Vec.exists_numbers (Vec.allFinite_eq_true_iff.2 fun j => ?_)
    rw [Vec.get_map]
    exact Vec.allFinite_eq_true_iff.1 (h.right j) i
  rw [Svd.solve, Vector.get_ofFn, hc, hv, Vec.dot_numbers]
  rfl

/-- The least-squares step by rotations has no undefined entries. -/
theorem allFinite_solve_svdByRotations (A : SquareMatrix 𝕜 n) (b : Vector 𝕜 n) :
    Vec.allFinite ((svdByRotations (SquareMatrix.numbers A)).solve (Vec.numbers b)) = true :=
  (isDefined_svdByRotations A).allFinite_solve b

/-! ## Real numbers -/

/-- The real numbers, with the unit roundoff of binary64. -/
noncomputable instance : ExactArithmetic ℝ where
  root := Real.sqrt
  roundoff := ((2 ^ 52 : ℕ) : ℝ)⁻¹
  roundoff_nonneg := by positivity

instance : ExactRoots ℝ where
  root_nonneg _ := Real.sqrt_nonneg _
  root_mul_root h := Real.mul_self_sqrt h

end Stationary
