import Stationary.Proofs.DefinedSteps
import Stationary.Proofs.ProjectedSteps

/-!
# Regular steps

What the flag of a step by elimination says. A step that can be used has divided by no pivot that
is zero, so the matrix is regular and the step is the only solution, whatever the threshold; with
the threshold zero the step can be used for all regular matrices (`LinearStep.exactLu_regular`).

The flag asks for pivots that are not zero and above a multiple of the largest one. It does not read
the right-hand side, and a smaller threshold refuses less. A matrix with unknowns has a pivot that
is not above the largest one (`Factors.largestPivot_mem`), so a threshold of one or more refuses
everything. If all equations are multiplied by the same number, every pivot is taken from the same
place as before and is multiplied by it, and the multipliers stay the same (`factor_scale`). So the
flag stays, and the step is divided by the number (`LinearStep.usable_exactLu_antitone_scaleFree`).
-/

set_option linter.unusedSectionVars false

namespace Stationary

open Matrix WithUndefined

variable {𝕜 : Type} {n : Nat} [ExactArithmetic 𝕜]

/-! ## The largest pivot -/

theorem foldl_max_mem (l : List 𝕜) (m : 𝕜) : l.foldl Scalar.max m ∈ m :: l := by
  induction l generalizing m with
  | nil => exact List.mem_cons_self
  | cons x l ih =>
    rcases List.mem_cons.1 (ih (max m x)) with h | h
    · have hlarger : (x :: l).foldl Scalar.max m = max m x := h
      rcases max_choice m x with hm | hx
      · rw [hlarger, hm]
        exact List.mem_cons_self
      · rw [hlarger, hx]
        exact List.mem_cons_of_mem _ List.mem_cons_self
    · exact List.mem_cons_of_mem _ (List.mem_cons_of_mem _ h)

/-- With unknowns the largest magnitude of a pivot is that of a pivot. -/
theorem Factors.largestPivot_mem (f : Factors 𝕜 (n + 1)) : f.largestPivot ∈ f.pivots := by
  cases f with
  | layer row pivot upper lower below =>
    have hstart : max 0 |pivot| = |pivot| := max_eq_right (abs_nonneg pivot)
    have hmem := foldl_max_mem below.pivots (max 0 |pivot|)
    rw [hstart] at hmem
    unfold largestPivot
    show below.pivots.foldl Scalar.max (max 0 |pivot|) ∈ |pivot| :: below.pivots
    rw [hstart]
    exact hmem

/-! ## Equations multiplied by a number -/

/-- The matrix with every entry multiplied by `c`. -/
def SquareMatrix.scale {m : Nat} (c : 𝕜) (A : Vector (Vector 𝕜 n) m) : Vector (Vector 𝕜 n) m :=
  A.map fun row => row.map (c * ·)

/-- The factors with everything but the multipliers multiplied by `c`. -/
def Factors.scale (c : 𝕜) : {n : Nat} → Factors 𝕜 n → Factors 𝕜 n
  | _, .empty => .empty
  | _, .layer row pivot upper lower below =>
    .layer row (c * pivot) (upper.map (c * ·)) lower (below.scale c)

theorem Vec.head_map {β γ : Type} (f : β → γ) (v : Vector β (n + 1)) :
    head (v.map f) = f (head v) :=
  get_map f v 0

theorem Vec.rest_map {β γ : Type} (f : β → γ) (v : Vector β (n + 1)) :
    rest (v.map f) = (rest v).map f :=
  ext_get fun i => by rw [get_rest, get_map, get_map, get_rest]

variable {c : 𝕜}

/-- The first entry of largest magnitude stays the first one. -/
theorem pivotIndex_scale (hc : c ≠ 0) (column : Vector 𝕜 (n + 1)) :
    pivotIndex (column.map (c * ·)) = pivotIndex column := by
  have hlt : ∀ x y : 𝕜, Scalar.lt (Scalar.abs (c * x)) (Scalar.abs (c * y)) =
      Scalar.lt (Scalar.abs x) (Scalar.abs y) := fun x y => by
    show decide (|c * x| < |c * y|) = decide (|x| < |y|)
    rw [abs_mul, abs_mul, decide_eq_decide, mul_lt_mul_iff_right₀ (abs_pos.2 hc)]
  unfold pivotIndex
  congr 1
  funext best i
  rw [Vec.get_map, Vec.get_map, hlt]

theorem multipliers_scale (hc : c ≠ 0) (pivot : 𝕜) (rows : Vector (Vector 𝕜 (n + 1)) n) :
    multipliers (c * pivot) (SquareMatrix.scale c rows) = multipliers pivot rows :=
  Vec.ext_get fun i => by
    rw [get_multipliers, get_multipliers, SquareMatrix.scale, Vec.get_map, Vec.head_map,
      mul_one_div, mul_one_div, mul_div_mul_left _ _ hc]

theorem eliminate_scale (upper lower : Vector 𝕜 n) (rows : Vector (Vector 𝕜 (n + 1)) n) :
    eliminate (upper.map (c * ·)) lower (SquareMatrix.scale c rows) =
      SquareMatrix.scale c (eliminate upper lower rows) :=
  Vec.ext_get fun i => Vec.ext_get fun j => by
    rw [get_get_eliminate, SquareMatrix.scale, SquareMatrix.scale, Vec.get_map, Vec.get_map,
      Vec.get_map, Vec.get_map, Vec.get_map, get_get_eliminate]
    ring

/-- Elimination of a matrix multiplied by a number makes the same choices. -/
theorem factor_scale (hc : c ≠ 0) (A : SquareMatrix 𝕜 n) :
    factor (SquareMatrix.scale c A) = (factor A).scale c := by
  induction n with
  | zero => rfl
  | succ n ih =>
    have hheads : (SquareMatrix.scale c A).map Vec.head = (A.map Vec.head).map (c * ·) :=
      Vec.ext_get fun i => by
        rw [SquareMatrix.scale, Vec.get_map, Vec.get_map, Vec.get_map, Vec.get_map, Vec.head_map]
    have hexchange : ∀ row, bringToTop row (SquareMatrix.scale c A) =
        SquareMatrix.scale c (bringToTop row A) := fun row => bringToTop_map _ row A
    have hrows : ∀ B : SquareMatrix 𝕜 (n + 1), Vec.rest (SquareMatrix.scale c B) =
        SquareMatrix.scale c (Vec.rest B) := fun B => Vec.rest_map _ B
    have htop : ∀ B : SquareMatrix 𝕜 (n + 1), Vec.head (SquareMatrix.scale c B) =
        (Vec.head B).map (c * ·) := fun B => Vec.head_map _ B
    simp only [factor, Factors.scale, hheads, pivotIndex_scale hc, hexchange, hrows, htop,
      Vec.head_map, Vec.rest_map, multipliers_scale hc, eliminate_scale, ih]

namespace Factors

theorem pivots_scale (f : Factors 𝕜 n) : (f.scale c).pivots = f.pivots.map (|c| * ·) := by
  induction f with
  | empty => rfl
  | layer row pivot upper lower below ih =>
    show |c * pivot| :: (below.scale c).pivots = |c| * |pivot| :: below.pivots.map (|c| * ·)
    rw [abs_mul, ih]

theorem largestPivot_scale (f : Factors 𝕜 n) :
    (f.scale c).largestPivot = |c| * f.largestPivot := by
  have hfold : ∀ (l : List 𝕜) (m : 𝕜), (l.map (|c| * ·)).foldl Scalar.max (|c| * m) =
      |c| * l.foldl Scalar.max m := by
    intro l
    induction l with
    | nil => exact fun m => rfl
    | cons x l ih =>
      intro m
      have hmax : Scalar.max (|c| * m) (|c| * x) = |c| * Scalar.max m x :=
        (mul_max_of_nonneg m x (abs_nonneg c)).symm
      rw [List.map_cons, List.foldl_cons, hmax, ih, List.foldl_cons]
  have h := hfold f.pivots 0
  rw [mul_zero] at h
  unfold largestPivot
  rw [pivots_scale]
  exact h

theorem solve_scale (hc : c ≠ 0) (f : Factors 𝕜 n) (b : Vector 𝕜 n) :
    (f.scale c).solve b = (f.solve b).map (· / c) := by
  induction f with
  | empty =>
    ext i hi
    omega
  | layer row pivot upper lower below ih =>
    have hdot : ∀ x : Vector 𝕜 _, Vec.dot (upper.map (c * ·)) (x.map (· / c)) =
        Vec.dot upper x := fun x => by
      rw [Vec.dot_eq, Vec.dot_eq]
      refine Finset.sum_congr rfl fun i _ => ?_
      rw [Vec.get_map, Vec.get_map]
      field_simp
    simp only [scale, solve, ih, hdot]
    refine (Vec.eq_cons_iff.2 ⟨?_, ?_⟩).symm
    · rw [Vec.head_map, Vec.head_cons, mul_one_div, mul_one_div, div_div, mul_comm pivot]
    · rw [Vec.rest_map, Vec.rest_cons]

end Factors

/-! ## Steps -/

namespace LinearStep

variable {A : SquareMatrix 𝕜 n} {b : Vector 𝕜 n}

/-- A smaller threshold accepts what a larger one does. -/
theorem usable_exactLu_of_le {r r' : 𝕜} (hle : r ≤ r')
    (h : (exactLu A b (number r')).usable = true) : (exactLu A b (number r)).usable = true := by
  obtain ⟨hne, hr'⟩ := usable_exactLu_iff.1 h
  refine usable_exactLu_iff.2 ⟨hne, ?_⟩
  rintro a ha p hp
  obtain rfl : r = a := number.inj ha
  exact (mul_le_mul_of_nonneg_right hle (factor A).largestPivot_nonneg).trans_lt (hr' r' rfl p hp)

/-- The largest pivot is refused by a threshold of one or more. -/
theorem usable_exactLu_of_one_le (hn : 0 < n) {r : 𝕜} (hr : 1 ≤ r) :
    (exactLu A b (number r)).usable = false := by
  obtain ⟨m, rfl⟩ := Nat.exists_eq_add_of_lt hn
  rw [← Bool.not_eq_true]
  intro h
  have hlt := (usable_exactLu_iff.1 h).2 r rfl _ (factor A).largestPivot_mem
  exact absurd hlt (not_lt.2 (le_mul_of_one_le_left (factor A).largestPivot_nonneg hr))

theorem pivots_scale_ne_zero_iff (hc : c ≠ 0) :
    (∀ p ∈ (factor (SquareMatrix.scale c A)).pivots, p ≠ 0) ↔ ∀ p ∈ (factor A).pivots, p ≠ 0 := by
  rw [factor_scale hc, Factors.pivots_scale]
  simp [hc]

theorem pivots_scale_above_iff (hc : c ≠ 0) (a : 𝕜) :
    (∀ p ∈ (factor (SquareMatrix.scale c A)).pivots,
      a * (factor (SquareMatrix.scale c A)).largestPivot < p) ↔
        ∀ p ∈ (factor A).pivots, a * (factor A).largestPivot < p := by
  rw [factor_scale hc, Factors.pivots_scale, Factors.largestPivot_scale, List.forall_mem_map]
  refine forall₂_congr fun p _ => ?_
  rw [mul_left_comm, mul_lt_mul_iff_right₀ (abs_pos.2 hc)]

theorem usable_exactLu_scale (hc : c ≠ 0) (r : WithUndefined 𝕜) :
    (exactLu (SquareMatrix.scale c A) b r).usable = (exactLu A b r).usable := by
  rw [Bool.eq_iff_iff, usable_exactLu_iff, usable_exactLu_iff, pivots_scale_ne_zero_iff hc]
  simp only [pivots_scale_above_iff hc]

theorem delta_exactLu_scale (hc : c ≠ 0) (h : ∀ p ∈ (factor A).pivots, p ≠ 0) (b : Vector 𝕜 n)
    (r : WithUndefined 𝕜) : (exactLu (SquareMatrix.scale c A) b r).delta =
      Vec.numbers (((factor A).solve b).map (· / c)) := by
  rw [delta_exactLu ((pivots_scale_ne_zero_iff hc).2 h), factor_scale hc, Factors.solve_scale hc]

/-- A step by elimination that can be used is the only solution of equations with a regular
matrix, whatever the threshold, and with the threshold zero it can be used for all of these. -/
theorem exactLu_regular (A : SquareMatrix 𝕜 n) (b : Vector 𝕜 n) :
    (∀ r, (exactLu A b r).usable = true →
      A.toMatrix.det ≠ 0 ∧ ∃ δ : Vector 𝕜 n, (exactLu A b r).delta = Vec.numbers δ ∧
        ∀ x : Vector 𝕜 n, A.toMatrix *ᵥ x.get = b.get ↔ x = δ) ∧
      ((exactLu A b 0).usable = true ↔ A.toMatrix.det ≠ 0) := by
  refine ⟨fun r hr => ?_, ?_⟩
  · obtain ⟨hne, -⟩ := usable_exactLu_iff.1 hr
    refine ⟨pivots_ne_zero_iff.1 hne, (factor A).solve b, delta_exactLu hne b r, fun x => ?_⟩
    rw [← isSolution_iff_mulVec, isSolution_iff_eq_solve hne]
  · rw [usable_exactLu_iff, pivots_ne_zero_iff]
    constructor
    · exact And.left
    · intro hdet
      refine ⟨hdet, ?_⟩
      rintro a ha p hp
      obtain rfl : (0 : 𝕜) = a := number.inj ha
      rw [zero_mul]
      exact ((factor A).pivots_nonneg p hp).lt_of_ne' (pivots_ne_zero_iff.2 hdet p hp)

/-- Equations whose first pivot is below the diagonal. -/
theorem exactLu_regular_antidiagonal :
    let A : SquareMatrix ℚ 2 := #v[#v[0, 1], #v[2, 0]]
    (exactLu A #v[3, 4] (standardPivotRtol 2)).usable = true ∧ A.toMatrix.det ≠ 0 ∧
      ∃ δ : Vector ℚ 2, (exactLu A #v[3, 4] (standardPivotRtol 2)).delta = Vec.numbers δ ∧
        ∀ x : Vector ℚ 2, A.toMatrix *ᵥ x.get = (#v[3, 4] : Vector ℚ 2).get ↔ x = δ := by
  intro A
  have husable : (exactLu A #v[3, 4] (standardPivotRtol 2)).usable = true := by decide +kernel
  exact ⟨husable, (exactLu_regular A #v[3, 4]).1 _ husable⟩

/-- The flag of a step by elimination does not read the right-hand side. A smaller threshold
accepts what a larger one does, with the same step, and a threshold of one or more accepts nothing.
Multiplying all equations by a number other than zero keeps the flag and divides the step. -/
theorem usable_exactLu_antitone_scaleFree (A : SquareMatrix 𝕜 n) :
    (∀ b b' r, (exactLu A b r).usable = (exactLu A b' r).usable) ∧
    (∀ b r r', r ≤ r' → (exactLu A b (number r')).usable = true →
      (exactLu A b (number r)).usable = true ∧
        (exactLu A b (number r)).delta = (exactLu A b (number r')).delta) ∧
    (0 < n → ∀ b r, 1 ≤ r → (exactLu A b (number r)).usable = false) ∧
    ∀ c, c ≠ 0 → ∀ b r,
      (exactLu (SquareMatrix.scale c A) b r).usable = (exactLu A b r).usable ∧
      ((exactLu A b r).usable = true → ∃ δ : Vector 𝕜 n,
        (exactLu A b r).delta = Vec.numbers δ ∧
          (exactLu (SquareMatrix.scale c A) b r).delta = Vec.numbers (δ.map (· / c))) := by
  refine ⟨fun b b' r => ?_, fun b r r' hle h => ⟨usable_exactLu_of_le hle h, rfl⟩,
    fun hn b r hr => usable_exactLu_of_one_le hn hr,
    fun c hc b r => ⟨usable_exactLu_scale hc r, fun h => ?_⟩⟩
  · rw [Bool.eq_iff_iff, usable_exactLu_iff, usable_exactLu_iff]
  · have hne := (usable_exactLu_iff.1 h).1
    exact ⟨(factor A).solve b, delta_exactLu hne b r, delta_exactLu_scale hc hne b r⟩

/-- A diagonal matrix whose smaller pivot is a sixteenth of the larger one, with thresholds on both
sides of it, and its multiple by a negative number. -/
theorem usable_exactLu_antitone_scaleFree_diagonal :
    let A : SquareMatrix ℚ 2 := #v[#v[1, 0], #v[0, 1 / 16]]
    (exactLu A #v[3, 1] (number (1 / 32))).usable = true ∧
      (exactLu A #v[3, 1] (number (1 / 64))).usable = true ∧
      (exactLu A #v[3, 1] (number (3 / 2))).usable = false ∧
      (exactLu (SquareMatrix.scale (-3) A) #v[3, 1] (number (1 / 32))).usable = true ∧
      ∃ δ : Vector ℚ 2, (exactLu A #v[3, 1] (number (1 / 32))).delta = Vec.numbers δ ∧
        (exactLu (SquareMatrix.scale (-3) A) #v[3, 1] (number (1 / 32))).delta =
          Vec.numbers (δ.map (· / (-3))) := by
  intro A
  have husable : (exactLu A #v[3, 1] (number (1 / 32))).usable = true := by decide +kernel
  obtain ⟨-, hantitone, hrefused, hscale⟩ := usable_exactLu_antitone_scaleFree A
  obtain ⟨hflag, hdelta⟩ := hscale (-3) (by decide) #v[3, 1] (number (1 / 32))
  exact ⟨husable, (hantitone #v[3, 1] (1 / 64) (1 / 32) (by decide +kernel) husable).1,
    hrefused (by decide) #v[3, 1] (3 / 2) (by decide +kernel), hflag.trans husable, hdelta husable⟩

end LinearStep

end Stationary
