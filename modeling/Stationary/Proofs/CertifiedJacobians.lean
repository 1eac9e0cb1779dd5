import Mathlib
import Stationary.Proofs.Conversions
import Stationary.Proofs.Derivatives
import Stationary.Proofs.Misfits
import Stationary.Proofs.PolicyForms
import Stationary.Proofs.RoundedMaxima

/-!
# Certified Jacobians

The error of a Jacobian is the greatest magnitude among the entries of its difference from the
derivative, and among magnitudes the greatest one vanishes only if all do (`Vanishing`). So the
error vanishes exactly if the difference does in every entry
(`jacobianErrorOf_vanishes_iff`). This is true of exact numbers, and of rounded ones in the sense of
the arithmetic : without subnormal numbers a difference vanishes if it is smaller than all
normal numbers (`exists_abs_sub_lt`).

The difference is taken after both tensors have been repeated along one shape, but a solver
does not repeat anything. A Jacobian that is a matrix and has as many entries as the derivative is
repeated along no axis (`Shape.eq_of_combine?`) : its error vanishes exactly if its entries
are those of the derivative, and it is taken by a solver. A Jacobian of any other shape is refused,
even if its error vanishes, as that of a number does which is the derivative in every direction
(`Problem.certified_number_is_refused`).
-/

set_option linter.unusedSectionVars false

namespace Stationary

open RoundedArithmetic

/-! ## Vanishing numbers -/

/-- Numbers of which some vanish, and whose greatest magnitude tells whether all of them do. -/
class Vanishing (α : Type) [Scalar α] where
  Vanishes : α → Prop
  IsMagnitude : α → Prop
  isMagnitude_abs (x : α) : IsMagnitude (Scalar.abs x)
  isMagnitude_max {x y : α} : IsMagnitude x → IsMagnitude y → IsMagnitude (Scalar.max x y)
  vanishes_abs_iff {x : α} : Vanishes (Scalar.abs x) ↔ Vanishes x
  vanishes_max_iff {x y : α} : IsMagnitude x → IsMagnitude y →
    (Vanishes (Scalar.max x y) ↔ Vanishes x ∧ Vanishes y)

open Vanishing

/-- The maximum of two numbers that are not negative is zero if both are. -/
theorem max_eq_zero_iff {β : Type} [LinearOrder β] [Zero β] {a b : β} (ha : 0 ≤ a) (hb : 0 ≤ b) :
    max a b = 0 ↔ a = 0 ∧ b = 0 := by
  constructor
  · intro h
    have hle : a ≤ 0 := (le_max_left a b).trans_eq h
    have hle' : b ≤ 0 := (le_max_right a b).trans_eq h
    exact ⟨le_antisymm hle ha, le_antisymm hle' hb⟩
  · rintro ⟨rfl, rfl⟩
    exact max_self 0

instance {𝕜 : Type} [ExactArithmetic 𝕜] : Vanishing 𝕜 where
  Vanishes x := x = 0
  IsMagnitude x := 0 ≤ x
  isMagnitude_abs x := abs_nonneg x
  isMagnitude_max hx _ := le_max_of_le_left hx
  vanishes_abs_iff := abs_eq_zero
  vanishes_max_iff hx hy := max_eq_zero_iff hx hy

/-- A rounded number vanishes if its value is zero. -/
instance {α : Type} [Scalar α] [RoundedArithmetic α] [RoundedMaximum α] : Vanishing α where
  Vanishes x := value x = some 0
  IsMagnitude x := AtLeast 0 x
  isMagnitude_abs := nonneg_abs
  isMagnitude_max {x y} hx hy := by
    intro c hc
    rw [RoundedMaximum.value_max, greater?, Option.bind_eq_some_iff] at hc
    obtain ⟨a, ha, hmax⟩ := hc
    obtain ⟨b, -, rfl⟩ := Option.map_eq_some_iff.1 hmax
    exact le_max_of_le_left (hx a ha)
  vanishes_abs_iff {x} := by
    rw [value_abs]
    cases value x with
    | none => simp
    | some a =>
      rw [Option.map_some, Option.some.injEq, Option.some.injEq]
      constructor
      · intro h
        have hpos : a ≤ 0 := (le_max_left a (-a)).trans_eq h
        have hneg : -a ≤ 0 := (le_max_right a (-a)).trans_eq h
        exact le_antisymm hpos (EReal.neg_le_zero.1 hneg)
      · rintro rfl
        rw [neg_zero, max_self]
  vanishes_max_iff {x y} hx hy := by
    rw [RoundedMaximum.value_max]
    cases ha : value x with
    | none => simp [greater?]
    | some a =>
      cases hb : value y with
      | none => simp [greater?]
      | some b =>
        rw [greater?_some, Option.some.injEq, Option.some.injEq, Option.some.injEq]
        exact max_eq_zero_iff (hx a ha) (hy b hb)

section Flushing

variable {α : Type} [Scalar α] [Subnormal α] [RoundedArithmetic α] [PositiveNormal α]

/-- The smallest normal number is not flushed. -/
theorem value_smallestNormal_flushed : value (⟨Subnormal.smallestNormal⟩ : Flushed α) =
    some (PositiveNormal.threshold α : EReal) := by
  show (value (Subnormal.smallestNormal : α)).map (flushing α) = _
  rw [PositiveNormal.value_smallestNormal, Option.map_some, flushing, flushedValue, if_neg]
  exact fun h => absurd (le_max_left _ _) h.not_ge

/-- What is rounded to zero is smaller than all normal numbers. -/
theorem lt_threshold_of_roundValue {c : EReal} (h : roundValue (Flushed α) c = 0) :
    -(PositiveNormal.threshold α : EReal) < c ∧ c < PositiveNormal.threshold α := by
  have hpos : (0 : EReal) < PositiveNormal.threshold α :=
    EReal.coe_pos.2 PositiveNormal.threshold_pos
  have hvalue := value_smallestNormal_flushed (α := α)
  have hnegative : value (-⟨Subnormal.smallestNormal⟩ : Flushed α) =
      some (-(PositiveNormal.threshold α : EReal)) := by
    rw [value_neg, hvalue, Option.map_some]
  constructor
  · by_contra hle
    have hround := roundValue_mono (α := Flushed α) (not_lt.1 hle)
    rw [h, roundValue_of_value hnegative] at hround
    exact hround.not_gt (EReal.neg_lt_zero.2 hpos)
  · by_contra hle
    have hround := roundValue_mono (α := Flushed α) (not_lt.1 hle)
    rw [h, roundValue_of_value hvalue] at hround
    exact hround.not_gt hpos

/-- Numbers whose difference vanishes are finite, and closer than the smallest normal number. -/
theorem exists_abs_sub_lt {x y : Flushed α} (h : value (x - y) = some 0) :
    ∃ a d : ℝ, value x = some (a : EReal) ∧ value y = some (d : EReal) ∧
      |a - d| < PositiveNormal.threshold α := by
  rw [value_sub, Option.map_eq_some_iff] at h
  obtain ⟨c, hsum, hround⟩ := h
  obtain ⟨a, b, ha, hb, hinfinite, rfl⟩ := exists_sum hsum
  obtain ⟨d, hd, rfl⟩ := Option.map_eq_some_iff.1 hb
  obtain ⟨hlow, hhigh⟩ := lt_threshold_of_roundValue hround
  have htop : a + -d ≠ ⊤ := hhigh.ne_top
  have hbot : a + -d ≠ ⊥ := (bot_le.trans_lt hlow).ne'
  have ha' : a ≠ ⊥ ∧ a ≠ ⊤ := by
    refine ⟨?_, ?_⟩
    · rintro rfl
      exact hbot (EReal.bot_add _)
    · rintro rfl
      exact htop (EReal.top_add_of_ne_bot fun h => hinfinite (Or.inl ⟨rfl, h⟩))
  have hd' : d ≠ ⊥ ∧ d ≠ ⊤ := by
    refine ⟨?_, ?_⟩
    · rintro rfl
      exact htop (EReal.add_top_of_ne_bot ha'.1)
    · rintro rfl
      exact hbot (EReal.add_bot _)
  lift a to ℝ using ⟨ha'.2, ha'.1⟩
  lift d to ℝ using ⟨hd'.2, hd'.1⟩
  refine ⟨a, d, ha, hd, abs_lt.2 ?_⟩
  rw [← sub_eq_add_neg] at hlow hhigh
  exact ⟨by exact_mod_cast hlow, by exact_mod_cast hhigh⟩

end Flushing

/-! ## Differences of tensors -/

section Tensors

variable {α : Type} [Scalar α] [Vanishing α] {n : Nat}

theorem foldl_max_vanishes_iff {x : α} {xs : List α} (hx : IsMagnitude x)
    (hxs : ∀ y ∈ xs, IsMagnitude y) :
    Vanishes (xs.foldl Scalar.max x) ↔ Vanishes x ∧ ∀ y ∈ xs, Vanishes y := by
  induction xs generalizing x with
  | nil => simp
  | cons y ys ih =>
    obtain ⟨hy, hys⟩ := List.forall_mem_cons.1 hxs
    rw [List.foldl_cons, ih (isMagnitude_max hx hy) hys, vanishes_max_iff hx hy,
      List.forall_mem_cons, and_assoc]

/-- The largest of some magnitudes vanishes if they all do, and there is one. -/
theorem largestOf_vanishes_iff {t : Tensor α} (h : ∀ x ∈ t.entries.toList, IsMagnitude x) :
    (∃ e, largestOf t = .ok e ∧ Vanishes e) ↔
      t.entries.toList ≠ [] ∧ ∀ x ∈ t.entries.toList, Vanishes x := by
  unfold largestOf
  cases hentries : t.entries.toList with
  | nil => simp
  | cons x xs =>
    rw [hentries] at h
    obtain ⟨hx, hxs⟩ := List.forall_mem_cons.1 h
    simp [foldl_max_vanishes_iff hx hxs]

variable [Inhabited α] {A D : Tensor α}

/-- The tensors have a shape in common along which they are repeated, with some entry, and their
difference vanishes in every entry. -/
def DifferByNothing (A D : Tensor α) : Prop :=
  ∃ shape, A.shape.combine? D.shape = some shape ∧ shape.size ≠ 0 ∧
    ∀ k : Fin shape.size, Vanishes ((A.stretch shape).entries.getD k default -
      (D.stretch shape).entries.getD k default)

theorem jacobianError_vanishes_iff :
    (∃ e, jacobianError A D = .ok e ∧ Vanishes e) ↔ DifferByNothing A D := by
  unfold jacobianError combined Tensor.zip? DifferByNothing
  cases A.shape.combine? D.shape with
  | none => simp [orFault, bind, Except.bind]
  | some shape =>
    simp only [Option.map_some, orFault, bind, Except.bind, Option.some.injEq, exists_eq_left']
    rw [largestOf_vanishes_iff]
    · simp [Array.toList_ofFn, vanishes_abs_iff]
    · simp [Array.toList_ofFn, isMagnitude_abs]

end Tensors

/-! ## Square shapes -/

/-- Two axes that are combined are of equal length, or one of them has length one. -/
theorem Shape.cases_of_combineReversed? {x y : ℕ} {xs ys shape : List ℕ}
    (h : Shape.combineReversed? (x :: xs) (y :: ys) = some shape) :
    (x = y ∨ x = 1 ∨ y = 1) ∧ ∃ rest, Shape.combineReversed? xs ys = some rest := by
  unfold Shape.combineReversed? at h
  split at h
  · rename_i hxy
    obtain ⟨rest, hrest, -⟩ := Option.map_eq_some_iff.1 h
    simp only [Bool.or_eq_true, decide_eq_true_eq] at hxy
    exact ⟨by tauto, rest, hrest⟩
  · split at h
    · rename_i hx
      obtain ⟨rest, hrest, -⟩ := Option.map_eq_some_iff.1 h
      exact ⟨Or.inr (Or.inl hx), rest, hrest⟩
    · cases h

/-- A matrix with as many entries as a square one is not repeated along it. -/
theorem Shape.eq_of_combine? {k l n : ℕ} (hn : n ≠ 0) {shape : Shape}
    (h : Shape.combine? [k, l] [n, n] = some shape) (hsize : k * l = n * n) : k = n ∧ l = n := by
  obtain ⟨axes, haxes, -⟩ := Option.map_eq_some_iff.1 h
  obtain ⟨hl, rest, hrest⟩ := Shape.cases_of_combineReversed? haxes
  obtain ⟨hk, -⟩ := Shape.cases_of_combineReversed? hrest
  have hpos : 0 < n := Nat.pos_of_ne_zero hn
  -- an axis of length one leaves too few entries, unless all are of length one
  rcases hl with rfl | rfl | rfl
  · exact ⟨Nat.eq_of_mul_eq_mul_right hpos hsize, rfl⟩
  · rcases hk with rfl | rfl | rfl
    · exact ⟨rfl, Nat.eq_of_mul_eq_mul_left hpos hsize⟩
    · rw [one_mul] at hsize
      obtain ⟨rfl, -⟩ := mul_eq_one.1 hsize.symm
      exact ⟨rfl, rfl⟩
    · rw [mul_one, mul_one] at hsize
      exact ⟨hsize, rfl⟩
  · exact mul_eq_one.1 hsize

section Matrices

variable {α : Type} [Inhabited α] {n : Nat}

theorem Tensor.getD_entries_ofMatrix (M : SquareMatrix α n) (k : Fin (n * n)) :
    (Tensor.ofMatrix M).entries.getD k default = (M.get k.divNat).get k.modNat := by
  have hk : k.val < M.flatten.toArray.size := by simp
  show M.flatten.toArray.getD k default = _
  rw [Array.getD, dif_pos hk]
  simp [Vector.getElem_flatten, Vector.get_eq_getElem]

/-- A tensor of square shape is a matrix. -/
theorem Tensor.exists_eq_ofMatrix {t : Tensor α} (h : t.shape = [n, n]) :
    ∃ M : SquareMatrix α n, t = .ofMatrix M := by
  have hsize : t.entries.size = n * n := by simp [t.size_eq, h, Shape.size]
  let M : SquareMatrix α n :=
    Vector.ofFn fun i => Vector.ofFn fun j => t.entries.getD (i * n + j) default
  refine ⟨M, Tensor.ext_entries h (Array.ext ?_ fun k hk hk' => ?_)⟩
  · simp [hsize, Tensor.ofMatrix]
  · have hk₂ : k < n * n := hsize ▸ hk
    have hentry := Tensor.getD_entries_ofMatrix M ⟨k, hk₂⟩
    rw [Array.getD, dif_pos hk'] at hentry
    rw [Array.getInternal_eq_getElem] at hentry
    rw [hentry]
    simp [M, Vector.get_ofFn, Nat.div_add_mod', Array.getD, hk]

/-- A tensor of two axes that can be combined with a square matrix, and has as many entries, is a
square matrix too. -/
theorem Tensor.exists_eq_ofMatrix_of_combine? (hn : n ≠ 0) {A : Tensor α}
    (haxes : A.shape.length = 2) (hsize : A.entries.size = n * n) {shape : Shape}
    (h : A.shape.combine? [n, n] = some shape) : ∃ M : SquareMatrix α n, A = .ofMatrix M := by
  obtain ⟨k, l, hshape⟩ := List.length_eq_two.1 haxes
  rw [hshape] at h
  rw [A.size_eq, hshape] at hsize
  obtain ⟨rfl, rfl⟩ := Shape.eq_of_combine? hn h (by simpa [Shape.size] using hsize)
  exact Tensor.exists_eq_ofMatrix hshape

variable [Scalar α] [Vanishing α]

/-- Square matrices are compared entry by entry. -/
theorem differByNothing_ofMatrix_iff (hn : n ≠ 0) {M D : SquareMatrix α n} :
    DifferByNothing (.ofMatrix M) (.ofMatrix D) ↔
      ∀ i j, Vanishes ((M.get i).get j - (D.get i).get j) := by
  have hshape : (Tensor.ofMatrix M).shape.combine? (Tensor.ofMatrix D).shape = some [n, n] :=
    Shape.combine?_self [n, n]
  have hM : (Tensor.ofMatrix M).stretch [n, n] = .ofMatrix M := Tensor.stretch_self _
  have hD : (Tensor.ofMatrix D).stretch [n, n] = .ofMatrix D := Tensor.stretch_self _
  have hsize : Shape.size [n, n] = n * n := by simp [Shape.size]
  unfold DifferByNothing
  simp only [hshape, Option.some.injEq, exists_eq_left', hM, hD]
  rw [hsize]
  simp only [Tensor.getD_entries_ofMatrix]
  constructor
  · rintro ⟨-, h⟩ i j
    have hentry := h (finProdFinEquiv (i, j))
    have hplace : ((finProdFinEquiv (i, j)).divNat, (finProdFinEquiv (i, j)).modNat) = (i, j) :=
      finProdFinEquiv.symm_apply_apply (i, j)
    rw [Prod.mk.injEq] at hplace
    rwa [hplace.1, hplace.2] at hentry
  · exact fun h => ⟨Nat.mul_ne_zero hn hn, fun k => h k.divNat k.modNat⟩

/-- A matrix with as many entries as `D` differs from it by nothing exactly if it is square and
does so in every entry. -/
theorem differByNothing_iff_of_size (hn : n ≠ 0) {A : Tensor α} {D : SquareMatrix α n}
    (haxes : A.shape.length = 2) (hsize : A.entries.size = n * n) :
    DifferByNothing A (.ofMatrix D) ↔ ∃ M : SquareMatrix α n, A = .ofMatrix M ∧
      ∀ i j, Vanishes ((M.get i).get j - (D.get i).get j) := by
  constructor
  · intro h
    obtain ⟨shape, hcombine, -⟩ := id h
    obtain ⟨M, rfl⟩ := Tensor.exists_eq_ofMatrix_of_combine? hn haxes hsize hcombine
    exact ⟨M, rfl, (differByNothing_ofMatrix_iff hn).1 h⟩
  · rintro ⟨M, rfl, h⟩
    exact (differByNothing_ofMatrix_iff hn).2 h

end Matrices

/-! ## Solvers -/

namespace System

variable {α : Type} {n : Nat} {system : System α n} {y : Vector α n} {A : Tensor α}

/-- What is known in advance of the shape of the Jacobian is the shape that it has at `y`. -/
structure Foresees (system : System α n) (y : Vector α n) : Prop where
  shape_eq : ∀ s, system.jacobianShape = .ok s → ∀ A, system.jacobian y = .ok A → s = A.shape
  needsValues : ∀ f, system.jacobianShape = .error f → f.needsValues = true

/-- A solver takes the Jacobian at `y` for the matrix `M`, and its shape in advance. -/
structure Takes (system : System α n) (y : Vector α n) (M : SquareMatrix α n) : Prop where
  jacobianAt : (system.jacobianAt y).value = .ok M
  check : system.Foresees y → system.checkJacobianShape.value = .ok ()

/-- A solver refuses the Jacobian at `y` for its shape, in advance too if the shape is known. -/
structure Refuses (system : System α n) (y : Vector α n) (s : Shape) : Prop where
  jacobianAt : (system.jacobianAt y).value = .error (.jacobianShape s n)
  check : system.jacobianShape = .ok s →
    system.checkJacobianShape.value = .error (.jacobianShape s n)

theorem takes_of_jacobian {M : SquareMatrix α n} (h : system.jacobian y = .ok (.ofMatrix M)) :
    system.Takes y M where
  jacobianAt := by
    rw [value_jacobianAt]
    unfold jacobianMatrix
    simp only [h, Tensor.toMatrix?_ofMatrix]
  check hforesees := by
    unfold checkJacobianShape
    cases hs : system.jacobianShape with
    | ok s =>
      have hsquare : s = [n, n] := hforesees.shape_eq s hs _ h
      dsimp only
      rw [if_pos hsquare]
      rfl
    | error f =>
      dsimp only
      rw [if_pos (hforesees.needsValues f hs)]
      rfl

theorem refuses_of_jacobian (h : system.jacobian y = .ok A) (hA : A.shape ≠ [n, n]) :
    system.Refuses y A.shape where
  jacobianAt := by
    rw [value_jacobianAt]
    exact (jacobianMatrix_eq_error_iff h).2 ⟨hA, rfl⟩
  check hs := by
    unfold checkJacobianShape
    rw [hs]
    dsimp only
    rw [if_neg hA]
    rfl

end System

section Checks

variable {α : Type} [Elementary α] [Inhabited α] {n : Nat}
  {F : Tensor (Jet α) → Except Fault (Tensor (Jet α))} {J : Tensor α → Except Fault (Tensor α)}
  {y : Vector α n} {A : Tensor α} {D : SquareMatrix α n} {e : α}

theorem jacobianErrorOf_eq (hA : J (.ofVector y) = .ok A)
    (hD : derivative F (.ofVector y) = .ok (.ofMatrix D)) :
    jacobianErrorOf F J (.ofVector y) = jacobianError A (.ofMatrix D) := by
  unfold jacobianErrorOf
  rw [hA, hD]
  rfl

/-- The error is that of some value of the Jacobian. -/
theorem exists_of_jacobianErrorOf (hD : derivative F (.ofVector y) = .ok (.ofMatrix D))
    (h : jacobianErrorOf F J (.ofVector y) = .ok e) :
    ∃ A, J (.ofVector y) = .ok A ∧ jacobianError A (.ofMatrix D) = .ok e := by
  cases hA : J (.ofVector y) with
  | error f =>
    unfold jacobianErrorOf at h
    rw [hA] at h
    cases h
  | ok A => exact ⟨A, rfl, (jacobianErrorOf_eq hA hD).symm.trans h⟩

/-- Tensors that have a difference have a shape in common. -/
theorem exists_combine?_of_jacobianError {A D : Tensor α} (h : jacobianError A D = .ok e) :
    ∃ shape, A.shape.combine? D.shape = some shape := by
  unfold jacobianError combined Tensor.zip? at h
  cases hshape : A.shape.combine? D.shape with
  | none =>
    rw [hshape] at h
    cases h
  | some shape => exact ⟨shape, rfl⟩

variable [Vanishing α]

/-- The error of a Jacobian vanishes exactly if it differs from the derivative by nothing. -/
theorem jacobianErrorOf_vanishes_iff (hA : J (.ofVector y) = .ok A)
    (hD : derivative F (.ofVector y) = .ok (.ofMatrix D)) :
    (∃ e, jacobianErrorOf F J (.ofVector y) = .ok e ∧ Vanishes e) ↔
      DifferByNothing A (.ofMatrix D) := by
  rw [jacobianErrorOf_eq hA hD]
  exact jacobianError_vanishes_iff

end Checks

/-- In exact arithmetic matrices differ by nothing if they are equal. -/
theorem eq_of_entries_vanish {𝕜 : Type} [ExactArithmetic 𝕜] {n : Nat} {M D : SquareMatrix 𝕜 n}
    (h : ∀ i j, Vanishes ((M.get i).get j - (D.get i).get j)) : M = D :=
  Vec.ext_get fun i => Vec.ext_get fun j => sub_eq_zero.1 (h i j)

/-- Let the derivative of the residual be the matrix `D`, and let the Jacobian that a solver
evaluates have an error. Then the Jacobian has a value, and if this is a matrix with as many entries
as `D`, it is square and the solver takes it; a Jacobian of another shape is refused, whatever its
error is. In exact arithmetic the error of such a matrix is zero exactly if it equals the
derivative. In a binary format without subnormal numbers it is zero only if every entry is a finite
number whose distance from that of the derivative is smaller than all normal numbers. -/
theorem certified_jacobians {n : Nat} (hn : 1 ≤ n) :
    (∀ (α : Type) [Elementary α] [Inhabited α]
      (F : Tensor (Jet α) → Except Fault (Tensor (Jet α)))
      (J : Tensor α → Except Fault (Tensor α)) (system : System α n) (y : Vector α n)
      (D : SquareMatrix α n) (e : α), derivative F (.ofVector y) = .ok (.ofMatrix D) →
      system.jacobian y = J (.ofVector y) → jacobianErrorOf F J (.ofVector y) = .ok e →
      ∃ A, J (.ofVector y) = .ok A ∧
        (A.shape.length = 2 → A.entries.size = n * n →
          ∃ M, A = .ofMatrix M ∧ system.Takes y M) ∧
        (A.shape ≠ [n, n] → system.Refuses y A.shape)) ∧
    (∀ (𝕜 : Type) [ExactElementary 𝕜] [Inhabited 𝕜]
      (F : Tensor (Jet 𝕜) → Except Fault (Tensor (Jet 𝕜)))
      (J : Tensor 𝕜 → Except Fault (Tensor 𝕜)) (y : Vector 𝕜 n) (D : SquareMatrix 𝕜 n)
      (A : Tensor 𝕜), derivative F (.ofVector y) = .ok (.ofMatrix D) → J (.ofVector y) = .ok A →
      A.shape.length = 2 → A.entries.size = n * n →
      (jacobianErrorOf F J (.ofVector y) = .ok 0 ↔ A = .ofMatrix D)) ∧
    ∀ (α : Type) [Elementary α] [Subnormal α] [RoundedArithmetic α] [RoundedMaximum α]
      [PositiveNormal α] [Inhabited α]
      (F : Tensor (Jet (Flushed α)) → Except Fault (Tensor (Jet (Flushed α))))
      (J : Tensor (Flushed α) → Except Fault (Tensor (Flushed α))) (y : Vector (Flushed α) n)
      (D : SquareMatrix (Flushed α) n) (A : Tensor (Flushed α)) (e : Flushed α),
      derivative F (.ofVector y) = .ok (.ofMatrix D) → J (.ofVector y) = .ok A →
      A.shape.length = 2 → A.entries.size = n * n →
      jacobianErrorOf F J (.ofVector y) = .ok e → value e = some 0 →
      ∃ M : SquareMatrix (Flushed α) n, A = .ofMatrix M ∧ ∀ i j, ∃ a d : ℝ,
        value ((M.get i).get j) = some (a : EReal) ∧
        value ((D.get i).get j) = some (d : EReal) ∧ |a - d| < PositiveNormal.threshold α := by
  have hn₀ : n ≠ 0 := Nat.one_le_iff_ne_zero.1 hn
  refine ⟨fun α _ _ F J system y D e hD hJ he => ?_, fun 𝕜 _ _ F J y D A hD hA haxes hsize => ?_,
    fun α _ _ _ _ _ _ F J y D A e hD hA haxes hsize he hzero => ?_⟩
  · obtain ⟨A, hA, herror⟩ := exists_of_jacobianErrorOf hD he
    refine ⟨A, hA, fun haxes hsize => ?_, System.refuses_of_jacobian (hJ.trans hA)⟩
    obtain ⟨shape, hcombine⟩ := exists_combine?_of_jacobianError herror
    obtain ⟨M, rfl⟩ := Tensor.exists_eq_ofMatrix_of_combine? hn₀ haxes hsize hcombine
    exact ⟨M, rfl, System.takes_of_jacobian (hJ.trans hA)⟩
  · have hzero : jacobianErrorOf F J (.ofVector y) = .ok 0 ↔
        ∃ e, jacobianErrorOf F J (.ofVector y) = .ok e ∧ Vanishes e :=
      ⟨fun h => ⟨0, h, rfl⟩, fun ⟨e, he, h0⟩ => he.trans (congrArg Except.ok h0)⟩
    rw [hzero, jacobianErrorOf_vanishes_iff hA hD, differByNothing_iff_of_size hn₀ haxes hsize]
    constructor
    · rintro ⟨M, rfl, h⟩
      rw [eq_of_entries_vanish h]
    · rintro rfl
      exact ⟨D, rfl, fun i j => sub_self _⟩
  · obtain ⟨M, rfl, h⟩ := (differByNothing_iff_of_size hn₀ haxes hsize).1
      ((jacobianErrorOf_vanishes_iff hA hD).1 ⟨e, he, hzero⟩)
    exact ⟨M, rfl, fun i j => exists_abs_sub_lt (h i j)⟩

/-- The identity of two real unknowns has the unit matrix as its Jacobian, which has the error zero
and is taken by a solver. -/
theorem certified_jacobian_of_identity :
    jacobianErrorOf (fun z => .ok z) (fun _ => .ok (.ofMatrix #v[#v[1, 0], #v[0, 1]]))
      (.ofVector (#v[2, 3] : Vector ℝ 2)) = .ok 0 ∧
    (System.ofMaps id fun _ => #v[#v[1, 0], #v[0, 1]] : System ℝ 2).Takes #v[2, 3]
      #v[#v[1, 0], #v[0, 1]] := by
  obtain ⟨htaken, hexact, -⟩ := certified_jacobians one_le_two
  have hD : derivative (fun z => .ok z) (.ofVector (#v[2, 3] : Vector ℝ 2)) =
      .ok (.ofMatrix #v[#v[1, 0], #v[0, 1]]) := by
    refine derivative_ofVector (f := (#v[2, 3] : Vector ℝ 2).get) rfl fun i => ?_
    refine (Jet.has_unknowns _ i).of_gradient fun j => ?_
    fin_cases i <;> fin_cases j <;> simp [Vector.get]
  have hsize : (Tensor.ofMatrix (#v[#v[1, 0], #v[0, 1]] : SquareMatrix ℝ 2)).entries.size =
      2 * 2 := (Tensor.ofMatrix _).size_eq
  have herror : jacobianErrorOf (fun z => .ok z)
      (fun _ => .ok (.ofMatrix #v[#v[1, 0], #v[0, 1]]))
      (.ofVector (#v[2, 3] : Vector ℝ 2)) = .ok 0 :=
    (hexact ℝ _ (fun _ => .ok (.ofMatrix #v[#v[1, 0], #v[0, 1]])) _ _
      (.ofMatrix #v[#v[1, 0], #v[0, 1]]) hD rfl rfl hsize).2 rfl
  obtain ⟨A, hA, hmatrix, -⟩ :=
    htaken ℝ _ _ (System.ofMaps id fun _ => #v[#v[1, 0], #v[0, 1]]) _ _ _ hD rfl herror
  obtain rfl := Except.ok.inj hA
  obtain ⟨M, hM, htakes⟩ := hmatrix rfl hsize
  obtain rfl : #v[#v[1, 0], #v[0, 1]] = M := by
    simpa using congrArg (Tensor.toMatrix? 2) hM
  exact ⟨herror, htakes⟩

/-! ## A number as a Jacobian -/

namespace Problem

open Journaled (exists_ok_of_toOption)

/-- The formula `y₀ + y₁ - 2`. -/
def sumFormula : Formula :=
  .binary .sub (.binary .add (.unknown 0) (.unknown 1)) (.constant (.whole 2))

/-- The equation `y₀ + y₁ = 2`, twice, and as its Jacobian the number one, which every entry of
the derivative is. -/
def numberJacobian : Problem :=
  .formulas
    { residualFormula := .array [sumFormula, sumFormula]
      jacobianFormula := .constant (.whole 1)
      needsNumbers := false
      parameters := none }

/-- The number is repeated for the check, which finds no error, and refused by every solver. -/
theorem certified_number_is_refused :
    (∃ e, numberJacobian.jacobianError (.ofVector #v[.entry .device .binary64 (.float 1),
      .entry .device .binary64 (.float 2)]) = .ok e ∧ (e.toFloat == 0) = true) ∧
    (numberJacobian.system .binary64 2).Refuses (#v[⟨1⟩, ⟨2⟩] : Vector Binary64 2) [] ∧
    ((Solver.standard.newton Binary64).init (numberJacobian.system .binary64 2)
      #v[⟨1⟩, ⟨2⟩]).value = .error (.jacobianShape [] 2) := by
  have herror : (numberJacobian.jacobianError (.ofVector #v[.entry .device .binary64 (.float 1),
      .entry .device .binary64 (.float 2)])).toOption.map (fun e => e.toFloat == 0) =
      some true := by
    decide +kernel
  have hvalue : ((numberJacobian.system .binary64 2).jacobian
      (#v[⟨1⟩, ⟨2⟩] : Vector Binary64 2)).toOption.map (·.shape) = some [] := by
    decide +kernel
  have hknown : (numberJacobian.system (α := Binary64) .binary64 2).jacobianShape.toOption.map id =
      some [] := by
    decide +kernel
  have hresidual : ((numberJacobian.system .binary64 2).residualVector
      (#v[⟨1⟩, ⟨2⟩] : Vector Binary64 2)).toOption.map (·.toList.length) = some 2 := by
    decide +kernel
  obtain ⟨A, hA, hshape⟩ := exists_ok_of_toOption hvalue
  obtain ⟨s, hs, rfl⟩ := exists_ok_of_toOption hknown
  obtain ⟨f, hf, -⟩ := exists_ok_of_toOption hresidual
  have hrefuses : (numberJacobian.system .binary64 2).Refuses
      (#v[⟨1⟩, ⟨2⟩] : Vector Binary64 2) [] := by
    rw [← hshape]
    exact System.refuses_of_jacobian hA (by simp [hshape])
  refine ⟨exists_ok_of_toOption herror, hrefuses, ?_⟩
  exact (Newton.value_init_eq_error_iff two_ne_zero).2
    (Or.inr ⟨f, hf, Or.inl (hrefuses.check hs)⟩)

end Problem

end Stationary
