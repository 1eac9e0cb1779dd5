import Mathlib
import Stationary.LinearStep

/-!
# Elimination in exact arithmetic

An ordered field is an arithmetic in which every number is finite and the operations are exact;
only the square root and the unit roundoff have to be chosen (`ExactArithmetic`). In such an
arithmetic `factor` and `Factors.solve` are Gaussian elimination in the sense of linear algebra :
if no pivot is zero, the system has exactly one solution, and it is the one computed
(`isSolution_iff_eq_solve`). A row exchange only permutes the equations, and clearing the
first entries below a pivot that is not zero leaves equations with the same solutions
(`isSolution_eliminate_iff`); the rest is an induction on the layers. A step by elimination
that can be used has no zero pivot, if only the threshold is not negative
(`LinearStep.isSolution_iff_eq_delta`).
-/

set_option linter.unusedSectionVars false

namespace Stationary

open Matrix

/-- An ordered field with a square root, of which nothing is promised, and a unit roundoff. -/
class ExactArithmetic (𝕜 : Type) extends Field 𝕜, LinearOrder 𝕜, IsStrictOrderedRing 𝕜 where
  /-- What stands for the square root. -/
  root : 𝕜 → 𝕜
  /-- What stands for the unit roundoff. -/
  roundoff : 𝕜
  roundoff_nonneg : 0 ≤ roundoff

/-- The operations of the field. -/
instance ExactArithmetic.scalar {𝕜 : Type} [ExactArithmetic 𝕜] : Scalar 𝕜 where
  abs x := |x|
  sqrt := root
  max x y := max x y
  lt x y := decide (x < y)
  le x y := decide (x ≤ y)
  isFinite _ := true
  eps := roundoff
  ofNat n := n

variable {𝕜 : Type} {n : Nat} [ExactArithmetic 𝕜]

/-! ## Vectors -/

namespace Vec

theorem sum_eq (v : Vector 𝕜 n) : sum v = ∑ i, v.get i := by
  have hlist : sum v = v.toList.sum := by
    unfold sum
    cases v.toList with
    | nil => rfl
    | cons x xs =>
      have hfold : xs.foldl (· + ·) (x + 0) = x + xs.foldl (· + ·) 0 := List.foldl_assoc
      rw [List.sum_cons, List.sum_eq_foldl, ← hfold, add_zero]
  have hentries : v.toList = List.ofFn v.get := by
    rw [← Vector.toList_ofFn]
    congr 1
    ext i hi
    simp [Vector.get_eq_getElem]
  rw [hlist, hentries, List.sum_ofFn]

theorem dot_eq (u v : Vector 𝕜 n) : dot u v = u.get ⬝ᵥ v.get := by
  unfold dot
  rw [sum_eq]
  simp [dotProduct, Vector.get_eq_getElem]

/-- Every entry is finite. -/
@[simp] theorem allFinite_exact (v : Vector 𝕜 n) : allFinite v = true := by
  simp [allFinite, Scalar.isFinite]

/-- The product with a vector taken apart into its first entry and the others. -/
theorem dot_cons (u : Vector 𝕜 (n + 1)) (x : 𝕜) (v : Vector 𝕜 n) :
    dot u (cons x v) = head u * x + dot (rest u) v := by
  have hentries : ∀ i : Fin n, u.get i.succ * (cons x v).get i.succ = (rest u).get i * v.get i :=
    fun i => by rw [get_rest, get_cons_succ]
  rw [dot_eq, dot_eq, dotProduct, Fin.sum_univ_succ, get_cons_zero]
  simp only [hentries]
  rfl

/-- The product with a row less a multiple of another one. -/
theorem dot_sub_mul (a u x : Vector 𝕜 n) (l : 𝕜) :
    dot (Vector.zipWith (fun a u => a - l * u) a u) x = dot a x - l * dot u x := by
  have hrow : (Vector.zipWith (fun a u => a - l * u) a u).get = a.get - l • u.get := by
    ext i
    simp [Vector.get_eq_getElem]
  rw [dot_eq, dot_eq, dot_eq, hrow, sub_dotProduct, smul_dotProduct, smul_eq_mul]

end Vec

/-! ## Linear equations -/

/-- The vector `x` solves the equations `A x = b`. -/
def IsSolution {m : Nat} (A : Vector (Vector 𝕜 n) m) (b : Vector 𝕜 m) (x : Vector 𝕜 n) : Prop :=
  ∀ i, Vec.dot (A.get i) x = b.get i

theorem isSolution_succ_iff {m : Nat} {A : Vector (Vector 𝕜 n) (m + 1)} {b : Vector 𝕜 (m + 1)}
    {x : Vector 𝕜 n} : IsSolution A b x ↔
      Vec.dot (Vec.head A) x = Vec.head b ∧ IsSolution (Vec.rest A) (Vec.rest b) x := by
  unfold IsSolution
  simp only [Fin.forall_fin_succ, Vec.get_rest]
  rfl

theorem get_bringToTop {β : Type} (i j : Fin (n + 1)) (v : Vector β (n + 1)) :
    (bringToTop i v).get j = v.get (Equiv.swap 0 i j) := by
  have hswap : (bringToTop i v).get j =
      if j.val = 0 then v.get i else if j.val = i.val then v.get 0 else v.get j :=
    Vector.getElem_swap ..
  rw [hswap, Equiv.swap_apply_def, apply_ite v.get, apply_ite v.get]
  simp only [Fin.ext_iff, Fin.val_zero]

/-- An exchange moves entries, and makes none. -/
theorem forall_get_bringToTop_iff {β : Type} {p : β → Prop} (i : Fin (n + 1))
    (v : Vector β (n + 1)) : (∀ j, p ((bringToTop i v).get j)) ↔ ∀ j, p (v.get j) := by
  simp only [get_bringToTop]
  exact (Equiv.swap 0 i).forall_congr_right (q := fun j => p (v.get j))

/-- An exchange of two equations keeps the solutions. -/
theorem isSolution_bringToTop_iff {A : SquareMatrix 𝕜 (n + 1)} {b x : Vector 𝕜 (n + 1)}
    (i : Fin (n + 1)) :
    IsSolution (bringToTop i A) (bringToTop i b) x ↔ IsSolution A b x := by
  unfold IsSolution
  simp only [get_bringToTop]
  exact (Equiv.swap 0 i).forall_congr_right
    (q := fun j => Vec.dot (A.get j) x = b.get j)

/-- Below a pivot that is not zero, the equations without their first entries have the solutions
of the old ones, if the equation of the pivot holds. -/
theorem isSolution_eliminate_iff {rows : Vector (Vector 𝕜 (n + 1)) n} {b upper xs : Vector 𝕜 n}
    {pivot r x : 𝕜} (hp : pivot ≠ 0) (htop : pivot * x + Vec.dot upper xs = r) :
    IsSolution rows b (Vec.cons x xs) ↔
      IsSolution (eliminate upper (multipliers pivot rows) rows)
        (Vector.zipWith (fun b l => b - l * r) b (multipliers pivot rows)) xs := by
  unfold IsSolution
  refine forall_congr' fun i => ?_
  have hright : (Vector.zipWith (fun b l => b - l * r) b (multipliers pivot rows)).get i =
      b.get i - (multipliers pivot rows).get i * r := by
    simp [Vector.get_eq_getElem]
  have hfirst : Vec.head (rows.get i) * (1 / pivot) * r =
      Vec.head (rows.get i) * x + Vec.head (rows.get i) * (1 / pivot) * Vec.dot upper xs := by
    rw [← htop]
    field_simp
  rw [get_eliminate, hright, Vec.dot_sub_mul, Vec.dot_cons, get_multipliers, hfirst]
  constructor
  · intro h
    linear_combination h
  · intro h
    linear_combination h

/-- A layer of the solution : the lower part solves the reduced equations, and the first entry
the equation of the pivot. -/
theorem Factors.cons_eq_solve_iff {row : Fin (n + 1)} {pivot x : 𝕜} {upper lower xs : Vector 𝕜 n}
    {below : Factors 𝕜 n} {b r : Vector 𝕜 (n + 1)} (hr : bringToTop row b = r) :
    Vec.cons x xs = (Factors.layer row pivot upper lower below).solve b ↔
      x = (Vec.head r - Vec.dot upper xs) * (1 / pivot) ∧
      xs = below.solve (Vector.zipWith (fun b l => b - l * Vec.head r) (Vec.rest r) lower) := by
  subst hr
  rw [Factors.solve, Vec.eq_cons_iff, Vec.head_cons, Vec.rest_cons]
  constructor
  · rintro ⟨rfl, rfl⟩
    exact ⟨rfl, rfl⟩
  · rintro ⟨rfl, rfl⟩
    exact ⟨rfl, rfl⟩

/-- If no pivot is zero, the solution that the factors give is the only one. -/
theorem isSolution_iff_eq_solve {A : SquareMatrix 𝕜 n} {b x : Vector 𝕜 n}
    (h : ∀ p ∈ (factor A).pivots, p ≠ 0) : IsSolution A b x ↔ x = (factor A).solve b := by
  induction n with
  | zero =>
    constructor
    · intro _
      ext i hi
      omega
    · intro _ i
      exact i.elim0
  | succ n ih =>
    let row := pivotIndex (A.map Vec.head)
    let top := Vec.head (bringToTop row A)
    let rows := Vec.rest (bringToTop row A)
    let r := bringToTop row b
    have hpivot : Vec.head top ≠ 0 := abs_ne_zero.1 (h _ List.mem_cons_self)
    obtain ⟨x₀, xs, rfl⟩ : ∃ x₀ xs, x = Vec.cons x₀ xs := ⟨_, _, (Vec.cons_head_rest x).symm⟩
    have hfirst : Vec.head top * x₀ + Vec.dot (Vec.rest top) xs = Vec.head r ↔
        x₀ = (Vec.head r - Vec.dot (Vec.rest top) xs) * (1 / Vec.head top) := by
      rw [mul_one_div, eq_div_iff hpivot, eq_sub_iff_add_eq, mul_comm x₀]
    -- the exchange, the two parts of the equations, the elimination, and the layers below
    calc IsSolution A b (Vec.cons x₀ xs)
        ↔ IsSolution (bringToTop row A) r (Vec.cons x₀ xs) := (isSolution_bringToTop_iff row).symm
      _ ↔ Vec.head top * x₀ + Vec.dot (Vec.rest top) xs = Vec.head r ∧
            IsSolution rows (Vec.rest r) (Vec.cons x₀ xs) := by
          rw [isSolution_succ_iff, Vec.dot_cons]
      _ ↔ Vec.head top * x₀ + Vec.dot (Vec.rest top) xs = Vec.head r ∧
            IsSolution (eliminate (Vec.rest top) (multipliers (Vec.head top) rows) rows)
              (Vector.zipWith (fun b l => b - l * Vec.head r) (Vec.rest r)
                (multipliers (Vec.head top) rows)) xs :=
          and_congr_right fun htop => isSolution_eliminate_iff hpivot htop
      _ ↔ Vec.cons x₀ xs = (factor A).solve b := by
          rw [hfirst, ih fun p hp => h p (List.mem_cons_of_mem _ hp)]
          exact (Factors.cons_eq_solve_iff rfl).symm

/-- The matrix with the entries of `A`. -/
def SquareMatrix.toMatrix (A : SquareMatrix 𝕜 n) : Matrix (Fin n) (Fin n) 𝕜 :=
  Matrix.of fun i j => (A.get i).get j

/-- The square matrix with the entries of `M`. -/
def SquareMatrix.ofMatrix (M : Matrix (Fin n) (Fin n) 𝕜) : SquareMatrix 𝕜 n :=
  Vector.ofFn fun i => Vector.ofFn (M i)

@[simp] theorem SquareMatrix.toMatrix_ofMatrix (M : Matrix (Fin n) (Fin n) 𝕜) :
    (SquareMatrix.ofMatrix M).toMatrix = M := by
  ext i j
  simp [toMatrix, ofMatrix]

theorem isSolution_iff_mulVec {A : SquareMatrix 𝕜 n} {b x : Vector 𝕜 n} :
    IsSolution A b x ↔ A.toMatrix *ᵥ x.get = b.get := by
  unfold IsSolution
  simp only [Vec.dot_eq, funext_iff]
  rfl

/-! ## Steps -/

theorem Factors.largestPivot_nonneg (f : Factors 𝕜 n) : 0 ≤ f.largestPivot := by
  have hfold : ∀ (l : List 𝕜) (m : 𝕜), 0 ≤ m → 0 ≤ l.foldl Scalar.max m := by
    intro l
    induction l with
    | nil => exact fun m hm => hm
    | cons p l ih => exact fun m hm => ih (max m p) (le_max_of_le_left hm)
  exact hfold f.pivots 0 le_rfl

theorem Factors.allFinite_exact (f : Factors 𝕜 n) : f.allFinite = true := by
  induction f with
  | empty => rfl
  | layer row pivot upper lower below ih =>
    simp [Factors.allFinite, ih, Scalar.isFinite]

/-- A threshold refuses no matrix whose pivots are all above it. -/
theorem Factors.isSingular_eq_false_iff {f : Factors 𝕜 n} {rtol : 𝕜} :
    f.isSingular rtol = false ↔ ∀ p ∈ f.pivots, rtol * f.largestPivot < p := by
  simp [isSingular, Scalar.le]

/-- A step by elimination can be used if all pivots are above the threshold. -/
theorem LinearStep.usable_lu_iff {A : SquareMatrix 𝕜 n} {b : Vector 𝕜 n} {rtol : 𝕜} :
    (LinearStep.lu A b rtol).usable = true ↔
      ∀ p ∈ (factor A).pivots, rtol * (factor A).largestPivot < p := by
  simp [LinearStep.lu, Factors.allFinite_exact, Factors.isSingular_eq_false_iff]

/-- With a threshold that is not negative, the step that can be used is the only solution. -/
theorem LinearStep.isSolution_iff_eq_delta {A : SquareMatrix 𝕜 n} {b x : Vector 𝕜 n} {rtol : 𝕜}
    (hr : 0 ≤ rtol) (hu : (LinearStep.lu A b rtol).usable = true) :
    IsSolution A b x ↔ x = (LinearStep.lu A b rtol).delta := by
  refine isSolution_iff_eq_solve fun p hp => ne_of_gt ?_
  have hlarge : 0 ≤ rtol * (factor A).largestPivot :=
    mul_nonneg hr (factor A).largestPivot_nonneg
  exact hlarge.trans_lt (LinearStep.usable_lu_iff.1 hu p hp)

end Stationary
