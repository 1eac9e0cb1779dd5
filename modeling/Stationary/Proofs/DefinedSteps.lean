import Stationary.Proofs.SingularValues
import Stationary.Proofs.Undefined

/-!
# Linear steps that divide by no zero

Over numbers that might be undefined a linear step computes what it computes over the field, as
long as it divides by no zero. Elimination divides by its pivots, so with pivots that are not zero
the factors and the solution are those of the field (`factor_numbers`, `Factors.solve_numbers`).
A zero pivot leaves an undefined number in the solution. Hence a step by elimination can be used
if and only if no pivot is zero and none is at or below the threshold
(`LinearStep.usable_exactLu_iff`); a threshold that is undefined refuses no pivot.

The weights of singular values are inverses of positive numbers. So a step of least squares over
a decomposition into numbers is always that of the field (`LinearStep.exactLeastSquares_eq`).
-/

set_option linter.unusedSectionVars false

namespace Stationary

open WithUndefined

variable {𝕜 : Type} {n : Nat} [ExactArithmetic 𝕜]

theorem WithUndefined.number_le (x y : 𝕜) :
    Scalar.le (number x) (number y) = decide (x ≤ y) := rfl

theorem Vec.cons_numbers (x : 𝕜) (v : Vector 𝕜 n) :
    cons (number x) (numbers v) = numbers (cons x v) :=
  (eq_cons_iff.2 ⟨by rw [head_numbers, head_cons], by rw [rest_numbers, rest_cons]⟩).symm

/-- The largest number of a list of numbers. -/
theorem foldl_max_numbers (l : List 𝕜) (m : 𝕜) :
    (l.map number).foldl Scalar.max (number m) = number (l.foldl Scalar.max m) := by
  induction l generalizing m with
  | nil => rfl
  | cons x l ih => exact ih (max m x)

/-! ## Elimination -/

namespace Factors

theorem pivots_numbers (f : Factors 𝕜 n) : (f.map number).pivots = f.pivots.map number := by
  induction f with
  | empty => rfl
  | layer row pivot upper lower below ih => exact congrArg (number |pivot| :: ·) ih

theorem largestPivot_numbers (f : Factors 𝕜 n) :
    (f.map number).largestPivot = number f.largestPivot := by
  unfold largestPivot
  rw [pivots_numbers]
  exact foldl_max_numbers f.pivots 0

theorem allFinite_map_number (f : Factors 𝕜 n) : (f.map number).allFinite = true := by
  induction f with
  | empty => rfl
  | layer row pivot upper lower below ih =>
    have hupper : Vec.allFinite (upper.map number) = true := Vec.allFinite_numbers upper
    have hlower : Vec.allFinite (lower.map number) = true := Vec.allFinite_numbers lower
    have hpivot : Scalar.isFinite (number pivot) = true := rfl
    simp only [Factors.map, allFinite, ih, hupper, hlower, hpivot, Bool.and_self]

/-- A threshold that is a number refuses the pivots that it refuses over the field, and one that is
undefined refuses none. -/
theorem isSingular_map_number (f : Factors 𝕜 n) (r : WithUndefined 𝕜) :
    (f.map number).isSingular r = match r with
      | number a => f.isSingular a
      | undefined => false := by
  unfold isSingular
  rw [pivots_numbers, largestPivot_numbers, List.any_map]
  cases r with
  | number a => rfl
  | undefined => exact List.any_eq_false.2 fun p _ => Bool.false_ne_true

/-- The solution divides by pivots only. -/
theorem solve_numbers {f : Factors 𝕜 n} (h : ∀ p ∈ f.pivots, p ≠ 0) (b : Vector 𝕜 n) :
    (f.map number).solve (Vec.numbers b) = Vec.numbers (f.solve b) := by
  induction f with
  | empty =>
    ext i hi
    omega
  | layer row pivot upper lower below ih =>
    have hpivot : pivot ≠ 0 := abs_ne_zero.1 (h _ List.mem_cons_self)
    have hinverse : (1 : WithUndefined 𝕜) / number pivot = number (1 / pivot) :=
      number_div hpivot
    have hr : bringToTop row (Vec.numbers b) = Vec.numbers (bringToTop row b) :=
      bringToTop_map number row b
    have hright : Vector.zipWith
        (fun x l : WithUndefined 𝕜 => x - l * Vec.head (Vec.numbers (bringToTop row b)))
        (Vec.rest (Vec.numbers (bringToTop row b))) (lower.map number) =
          Vec.numbers (Vector.zipWith (fun x l : 𝕜 => x - l * Vec.head (bringToTop row b))
            (Vec.rest (bringToTop row b)) lower) := by
      rw [Vec.head_numbers, Vec.rest_numbers]
      exact Vec.zipWith_numbers (fun x y => rfl) _ _
    have hupper : upper.map number = Vec.numbers upper := rfl
    simp only [map, solve, hr, hright, hupper]
    rw [ih fun p hp => h p (List.mem_cons_of_mem _ hp), Vec.dot_numbers, Vec.head_numbers, hinverse,
      number_sub, number_mul, Vec.cons_numbers]

end Factors

/-- If no pivot is zero, a matrix of numbers has the factors of the matrix over the field. -/
theorem factor_numbers {A : SquareMatrix 𝕜 n} (h : ∀ p ∈ (factor A).pivots, p ≠ 0) :
    factor (SquareMatrix.numbers A) = (factor A).map number := by
  induction n with
  | zero => rfl
  | succ n ih =>
    obtain ⟨hpivot, hbelow⟩ := List.forall_mem_cons.1 h
    rw [factor_numbers_succ]
    dsimp only
    rw [multipliers_numbers (abs_ne_zero.1 hpivot), eliminate_numbers, ih hbelow]
    rfl

namespace LinearStep

variable {A : SquareMatrix 𝕜 n} {b : Vector 𝕜 n} {r : WithUndefined 𝕜}

/-- Elimination over a field where a division by zero shows. -/
def exactLu (A : SquareMatrix 𝕜 n) (b : Vector 𝕜 n) (r : WithUndefined 𝕜) :
    LinearStep (WithUndefined 𝕜) n :=
  lu (SquareMatrix.numbers A) (Vec.numbers b) r

/-- A step by elimination that divides by no zero is the one over the field. -/
theorem delta_exactLu (h : ∀ p ∈ (factor A).pivots, p ≠ 0) (b : Vector 𝕜 n)
    (r : WithUndefined 𝕜) : (exactLu A b r).delta = Vec.numbers ((factor A).solve b) := by
  unfold exactLu lu
  rw [factor_numbers h]
  exact Factors.solve_numbers h b

/-- A step by elimination can be used if and only if no pivot is zero, and none is at or below
the threshold. -/
theorem usable_exactLu_iff :
    (exactLu A b r).usable = true ↔
      (∀ p ∈ (factor A).pivots, p ≠ 0) ∧
        ∀ a, r = number a → ∀ p ∈ (factor A).pivots, a * (factor A).largestPivot < p := by
  constructor
  · intro h
    obtain ⟨hfactors, hdelta⟩ := Bool.and_eq_true_iff.1 h
    have hne := pivots_ne_zero_of_allFinite hdelta
    refine ⟨hne, ?_⟩
    rintro a rfl
    rw [factor_numbers hne, Factors.isSingular_map_number] at hfactors
    exact Factors.isSingular_eq_false_iff.1 (by simpa using (Bool.and_eq_true_iff.1 hfactors).1)
  · rintro ⟨hne, hr⟩
    have hregular : ((factor A).map number).isSingular r = false := by
      rw [Factors.isSingular_map_number]
      cases r with
      | number a => exact Factors.isSingular_eq_false_iff.2 (hr a rfl)
      | undefined => rfl
    unfold exactLu lu
    simp only [factor_numbers hne, hregular, Factors.allFinite_map_number,
      Factors.solve_numbers hne, Vec.allFinite_numbers, Bool.not_false, Bool.and_self]

end LinearStep

/-! ## Least squares -/

namespace Svd

/-- The decomposition with its numbers as numbers that might be undefined. -/
def numbers (d : Svd 𝕜 n) : Svd (WithUndefined 𝕜) n where
  left := SquareMatrix.numbers d.left
  values := Vec.numbers d.values
  right := SquareMatrix.numbers d.right

theorem cutoff_numbers (d : Svd 𝕜 n) : d.numbers.cutoff = number d.cutoff := by
  have hlargest : d.numbers.largest = number d.largest := by
    unfold largest
    rw [← Vector.foldl_toList, ← Vector.foldl_toList, numbers, Vec.numbers, Vector.toList_map]
    exact foldl_max_numbers d.values.toList 0
  unfold cutoff
  rw [hlargest]
  rfl

/-- A weight is zero or the inverse of a positive number. -/
theorem weight_numbers (d : Svd 𝕜 n) (s : 𝕜) :
    d.numbers.weight (number s) = number (d.weight s) := by
  unfold weight
  rw [cutoff_numbers, number_le, ← number_zero, number_lt]
  by_cases hpos : 0 < s
  · rw [apply_ite number, ← number_div hpos.ne']
    rfl
  · have hlt : Scalar.lt 0 s = false := decide_eq_false hpos
    rw [hlt, decide_eq_false hpos]
    rfl

theorem coordinates_numbers (d : Svd 𝕜 n) (b : Vector 𝕜 n) :
    d.numbers.coordinates (Vec.numbers b) = Vec.numbers (d.coordinates b) := by
  ext i hi
  simp only [coordinates, numbers, SquareMatrix.numbers, Vector.getElem_zipWith,
    Vec.getElem_numbers, Vector.getElem_map, Vec.dot_numbers]
  exact congrArg (· * _) (d.weight_numbers _)

/-- A step of least squares over a decomposition into numbers is the one over the field. -/
theorem solve_numbers (d : Svd 𝕜 n) (b : Vector 𝕜 n) :
    d.numbers.solve (Vec.numbers b) = Vec.numbers (d.solve b) := by
  refine Vec.ext_get fun i => ?_
  have hright : d.numbers.right = d.right.map Vec.numbers := rfl
  have hcolumn : d.numbers.right.map (fun v => v.get i) =
      Vec.numbers (d.right.map fun v => v.get i) := Vec.ext_get fun j => by
    rw [hright, Vec.get_map, Vec.get_map, Vec.get_numbers, Vec.get_numbers, Vec.get_map]
  unfold solve
  rw [Vector.get_ofFn, Vec.get_numbers, Vector.get_ofFn, hcolumn, coordinates_numbers,
    Vec.dot_numbers]

end Svd

namespace LinearStep

variable [Decomposes (WithUndefined 𝕜)]

/-- Least squares over a field where a division by zero shows. -/
def exactLeastSquares (A : SquareMatrix 𝕜 n) (b : Vector 𝕜 n) : LinearStep (WithUndefined 𝕜) n :=
  leastSquares (SquareMatrix.numbers A) (Vec.numbers b)

/-- Over a decomposition into numbers least squares divides by no zero. -/
theorem exactLeastSquares_eq {A : SquareMatrix 𝕜 n} {d : Svd 𝕜 n}
    (hd : Decomposes.svd (SquareMatrix.numbers A) = d.numbers) (b : Vector 𝕜 n) :
    exactLeastSquares A b = { delta := Vec.numbers (d.solve b), usable := true } := by
  unfold exactLeastSquares leastSquares
  simp only [hd, Svd.solve_numbers, Vec.allFinite_numbers]

end LinearStep

end Stationary
