import Stationary.Proofs.Exact

/-!
# Triangular factors

In exact arithmetic the layers of `factor` are the factors of the textbooks. With the rows of the
matrix in the order in which elimination puts them (`Factors.order`), the matrix is the product
of a lower triangular matrix of multipliers with ones on its diagonal (`Factors.lowerMatrix`)
and an upper triangular one with the pivots on its diagonal (`Factors.upperMatrix`), which is
`submatrix_order_eq_mul`. This holds for singular matrices too : the pivot of a layer is an entry
of largest magnitude (`abs_get_le_pivotIndex`), so if it is zero there is nothing to clear.

The determinants of the triangular matrices are one and the product of the pivots. So up to its
sign the determinant of a matrix is the product of its pivots (`abs_det_eq_prod_pivots`).
-/

set_option linter.unusedSectionVars false

namespace Stationary

open Matrix

variable {𝕜 : Type} {n : Nat} [ExactArithmetic 𝕜]

/-! ## Pivots -/

/-- The place of the larger magnitude of two, and of equal ones the first. -/
def placeOfLarger (column : Vector 𝕜 n) (best i : Fin n) : Fin n :=
  if Scalar.lt (Scalar.abs (column.get best)) (Scalar.abs (column.get i)) then i else best

theorem abs_le_placeOfLarger (column : Vector 𝕜 n) (best i : Fin n) :
    |column.get best| ≤ |column.get (placeOfLarger column best i)| ∧
      |column.get i| ≤ |column.get (placeOfLarger column best i)| := by
  have hlt : Scalar.lt (Scalar.abs (column.get best)) (Scalar.abs (column.get i)) =
      decide (|column.get best| < |column.get i|) := rfl
  unfold placeOfLarger
  rw [hlt]
  by_cases h : |column.get best| < |column.get i|
  · rw [if_pos (decide_eq_true h)]
    exact ⟨h.le, le_rfl⟩
  · rw [if_neg (by simpa using h)]
    exact ⟨le_rfl, not_lt.1 h⟩

/-- A scan ends at a place whose magnitude none on the way exceeds. -/
theorem abs_le_foldl_placeOfLarger (column : Vector 𝕜 n) (l : List (Fin n)) (best i : Fin n)
    (h : i = best ∨ i ∈ l) :
    |column.get i| ≤ |column.get (l.foldl (placeOfLarger column) best)| := by
  induction l generalizing best i with
  | nil =>
    rw [h.resolve_right List.not_mem_nil]
    exact le_rfl
  | cons j l ih =>
    obtain ⟨hbest, hj⟩ := abs_le_placeOfLarger column best j
    rcases h with rfl | h
    · exact hbest.trans (ih _ _ (Or.inl rfl))
    · rcases List.mem_cons.1 h with rfl | h
      · exact hj.trans (ih _ _ (Or.inl rfl))
      · exact ih _ _ (Or.inr h)

/-- No entry of a column exceeds the pivot. -/
theorem abs_get_le_pivotIndex (column : Vector 𝕜 (n + 1)) (i : Fin (n + 1)) :
    |column.get i| ≤ |column.get (pivotIndex column)| :=
  abs_le_foldl_placeOfLarger column _ _ i (Or.inr (List.mem_finRange i))

/-- If the pivot is zero the whole column is. -/
theorem head_eq_zero_of_pivot {A : SquareMatrix 𝕜 (n + 1)}
    (h : Vec.head (Vec.head (bringToTop (pivotIndex (A.map Vec.head)) A)) = 0) (i : Fin (n + 1)) :
    Vec.head (A.get i) = 0 := by
  have htop : Vec.head (bringToTop (pivotIndex (A.map Vec.head)) A) =
      A.get (pivotIndex (A.map Vec.head)) := by
    show (bringToTop _ A).get 0 = _
    rw [get_bringToTop, Equiv.swap_apply_left]
  have hle := abs_get_le_pivotIndex (A.map Vec.head) i
  rw [Vec.get_map, Vec.get_map, ← htop, h, abs_zero] at hle
  exact abs_eq_zero.1 (le_antisymm hle (abs_nonneg _))

theorem Factors.pivots_nonneg (f : Factors 𝕜 n) : ∀ p ∈ f.pivots, 0 ≤ p := by
  induction f with
  | empty =>
    intro p hp
    cases hp
  | layer row pivot upper lower below ih =>
    intro p hp
    rcases List.mem_cons.1 hp with rfl | hp
    · exact abs_nonneg pivot
    · exact ih p hp

/-! ## The two factors -/

namespace Factors

/-- Which row of the matrix elimination puts where. -/
def order : {n : Nat} → Factors 𝕜 n → Equiv.Perm (Fin n)
  | _, .empty => 1
  | _, .layer row _ _ _ below => Equiv.Perm.decomposeFin.symm (row, below.order)

/-- The multipliers, each in the place of the entry that it clears, below ones. Rows that change
places take their multipliers along. -/
def lowerMatrix : {n : Nat} → Factors 𝕜 n → Matrix (Fin n) (Fin n) 𝕜
  | _, .empty => 1
  | _, .layer _ _ _ lower below =>
    Matrix.of (Fin.cons (Fin.cons 1 0)
      fun i => Fin.cons (lower.get (below.order i)) (below.lowerMatrix i))

/-- The pivots, each with the rest of its row. -/
def upperMatrix : {n : Nat} → Factors 𝕜 n → Matrix (Fin n) (Fin n) 𝕜
  | _, .empty => 1
  | _, .layer _ pivot upper _ below =>
    Matrix.of (Fin.cons (Fin.cons pivot upper.get) fun i => Fin.cons 0 (below.upperMatrix i))

/-- A matrix whose first column is zero below its first entry. -/
theorem det_of_column_zero {M : Matrix (Fin (n + 1)) (Fin (n + 1)) 𝕜}
    (h : ∀ i : Fin n, M i.succ 0 = 0) : M.det = M 0 0 * (M.submatrix Fin.succ Fin.succ).det := by
  have hbelow : ∀ i ∈ (Finset.univ : Finset (Fin n)), (-1) ^ (i.succ : ℕ) * M i.succ 0 *
      (M.submatrix i.succ.succAbove Fin.succ).det = 0 := fun i _ => by
    rw [h, mul_zero, zero_mul]
  rw [det_succ_column_zero, Fin.sum_univ_succ, Finset.sum_eq_zero hbelow, Fin.val_zero, pow_zero,
    one_mul, add_zero, Fin.succAbove_zero]

/-- The determinant of the upper matrix is up to its sign the product of the pivots. -/
theorem abs_det_upperMatrix (f : Factors 𝕜 n) : |f.upperMatrix.det| = f.pivots.prod := by
  induction f with
  | empty => simp [upperMatrix, pivots]
  | layer row pivot upper lower below ih =>
    have hdet : (upperMatrix (layer row pivot upper lower below)).det =
        pivot * below.upperMatrix.det := det_of_column_zero fun i => rfl
    rw [hdet, abs_mul, ih]
    exact (List.prod_cons (a := |pivot|)).symm

theorem det_lowerMatrix (f : Factors 𝕜 n) : f.lowerMatrix.det = 1 := by
  induction f with
  | empty => exact det_one
  | layer row pivot upper lower below ih =>
    have hdet : (lowerMatrix (layer row pivot upper lower below))ᵀ.det =
        1 * below.lowerMatrixᵀ.det := det_of_column_zero fun i => rfl
    rw [← det_transpose, hdet, one_mul, det_transpose, ih]

end Factors

/-- With its rows in the order of elimination, a matrix is the product of its triangular
factors. -/
theorem submatrix_order_eq_mul (A : SquareMatrix 𝕜 n) :
    A.toMatrix.submatrix (factor A).order id =
      (factor A).lowerMatrix * (factor A).upperMatrix := by
  induction n with
  | zero =>
    ext i
    exact i.elim0
  | succ n ih =>
    let row := pivotIndex (A.map Vec.head)
    let top := Vec.head (bringToTop row A)
    let rows := Vec.rest (bringToTop row A)
    let lower := multipliers (Vec.head top) rows
    let below := factor (eliminate (Vec.rest top) lower rows)
    have htop : A.get row = top := by
      show _ = (bringToTop row A).get 0
      rw [get_bringToTop, Equiv.swap_apply_left]
    have hrows : ∀ i, A.get (Equiv.swap 0 row i.succ) = rows.get i := fun i => by
      rw [← get_bringToTop, ← Vec.get_rest]
    -- if the pivot is zero there is nothing to clear
    have hclear : ∀ i, lower.get i * Vec.head top = Vec.head (rows.get i) := fun i => by
      rw [get_multipliers]
      by_cases hpivot : Vec.head top = 0
      · rw [← hrows, head_eq_zero_of_pivot hpivot, zero_mul, zero_mul]
      · rw [one_div, inv_mul_cancel_right₀ hpivot]
    have hbelow : ∀ i j, (rows.get (below.order i)).get j.succ -
        lower.get (below.order i) * top.get j.succ =
          ∑ k, below.lowerMatrix i k * below.upperMatrix k j := fun i j => by
      rw [← mul_apply, ← ih, submatrix_apply, ← Vec.get_rest top]
      exact (get_get_eliminate ..).symm
    have horder : (factor A).order = Equiv.Perm.decomposeFin.symm (row, below.order) := rfl
    have hhead : (factor A).upperMatrix 0 = top.get := by
      funext j
      cases j using Fin.cases with
      | zero => rfl
      | succ j => exact Vec.get_rest top j
    ext i j
    rw [mul_apply, Fin.sum_univ_succ, hhead, submatrix_apply, horder]
    cases i using Fin.cases with
    | zero =>
      rw [Equiv.Perm.decomposeFin_symm_apply_zero, Finset.sum_eq_zero fun k _ => zero_mul _,
        add_zero]
      exact (congrArg (·.get j) htop).trans (one_mul _).symm
    | succ i =>
      have hentry : A.toMatrix (Equiv.swap 0 row (below.order i).succ) j =
          (rows.get (below.order i)).get j := congrArg (·.get j) (hrows _)
      have hmultiplier : (factor A).lowerMatrix i.succ 0 = lower.get (below.order i) := rfl
      rw [Equiv.Perm.decomposeFin_symm_apply_succ, hmultiplier]
      cases j using Fin.cases with
      | zero =>
        rw [Finset.sum_eq_zero fun k _ => mul_zero _, add_zero]
        exact hentry.trans (hclear _).symm
      | succ j => exact hentry.trans (sub_eq_iff_eq_add'.1 (hbelow i j))

/-- Up to its sign the determinant is the product of the pivots. -/
theorem abs_det_eq_prod_pivots (A : SquareMatrix 𝕜 n) :
    |A.toMatrix.det| = (factor A).pivots.prod := by
  have h := congrArg (fun M => |det M|) (submatrix_order_eq_mul A)
  have hsign : |(((factor A).order.sign : ℤ) : 𝕜)| = 1 := by
    rcases Int.units_eq_one_or (factor A).order.sign with hs | hs
    · simp [hs]
    · simp [hs]
  rw [det_permute, det_mul, Factors.det_lowerMatrix, one_mul, abs_mul, hsign, one_mul,
    Factors.abs_det_upperMatrix] at h
  exact h

end Stationary
