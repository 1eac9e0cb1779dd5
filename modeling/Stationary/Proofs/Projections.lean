import Stationary.Proofs.ClampedIterates
import Stationary.Proofs.Conversions
import Stationary.Proofs.Masks
import Stationary.Proofs.MinimumNorm
import Stationary.Proofs.RoundedMaxima

/-!
# Projections

A mask that a policy has for `n` components fits every vector of `n` components, so that the
vector is always projected : the marked components become the maximum of themselves and zero, the
others stay (`project_eq_clamp`). A mask that marks nothing leaves the vector alone at once, which
is the same.

All laws are laws of `max x 0`. In a binary format its value is the greater one of zero and the
value that the arithmetic has for `x`, so that it is monotone, and taking it again does not change
it, down to the sign of a zero (`Flushed.max_max_zero`). In exact arithmetic it makes no distance
larger, and is nearer to `x` than any other number that is not negative (`abs_max_zero_sub_lt`). A
sum of squares is smaller if no term is greater and one is smaller, and this makes the projection
the nearest one among the vectors that are not negative where the mask marks them
(`distance_clamp_lt`).
-/

set_option linter.unusedSectionVars false

namespace Stationary

open BinaryFormat RoundedArithmetic
open Float.Model (UnpackedFloat)

variable {n : Nat} {m : List Bool}

/-! ## Masks of policies -/

/-- The mask marks the component. -/
def Marks (m : List Bool) (i : Fin n) : Prop :=
  m[i.val]? = some true

/-- A mask with an entry for each component projects by clamping. -/
theorem exists_clamp_of_length (hlength : m.length = n) :
    ∃ mask : Vector Bool n, (∀ i, mask.get i = true ↔ Marks m i) ∧
      ∀ {α : Type} [Scalar α] (y : Vector α n), project y m = .ok (clamp mask y) := by
  subst hlength
  refine ⟨⟨m.toArray, by simp⟩, fun i => ?_, fun {α} _ y => ?_⟩
  · unfold Marks
    rw [List.getElem?_eq_getElem i.isLt, Option.some.injEq]
    rfl
  · unfold project
    split
    · rename_i hnone
      congr 1
      refine Vec.ext_get fun i => ?_
      have hi : ¬m[i.val] = true := fun h => by
        simp only [Bool.not_eq_true', List.any_eq_false] at hnone
        exact hnone _ (List.getElem_mem i.isLt) h
      rw [get_clamp]
      exact (if_neg hi).symm
    · rw [dif_pos rfl]

/-- A mask that a policy has is a vector of truth values, and projects by clamping. -/
theorem project_eq_clamp {machine : Machine} {policy : Setting}
    (hm : projectionMask machine policy n = .ok m) :
    ∃ mask : Vector Bool n, (∀ i, mask.get i = true ↔ Marks m i) ∧
      ∀ {α : Type} [Scalar α] (y : Vector α n), project y m = .ok (clamp mask y) := by
  have hlength := length_projectionMask hm
  exact exists_clamp_of_length (by omega)

/-- The vector `p` is the projection of `y`, and its own projection. -/
structure Projects {α : Type} [Scalar α] (m : List Bool) (nonneg : α → Prop) (y p : Vector α n) :
    Prop where
  project_eq : project y m = .ok p
  nonneg_of_marks : ∀ i, Marks m i → nonneg (p.get i)
  eq_of_not_marks : ∀ i, ¬Marks m i → p.get i = y.get i
  project_self : project p m = .ok p

/-- A vector that is clamped is its own projection, if a maximum with zero is. -/
theorem clamp_clamp {α : Type} [Scalar α] (hmax : ∀ x : α, Scalar.max (Scalar.max x 0) 0 =
    Scalar.max x 0) (mask : Vector Bool n) (y : Vector α n) :
    clamp mask (clamp mask y) = clamp mask y := by
  refine Vec.ext_get fun i => ?_
  simp only [get_clamp]
  split
  · exact hmax _
  · rfl

theorem projects_clamp {α : Type} [Scalar α] {nonneg : α → Prop} {mask : Vector Bool n}
    (hmask : ∀ i, mask.get i = true ↔ Marks m i)
    (hproject : ∀ y : Vector α n, project y m = .ok (clamp mask y))
    (hmax : ∀ x : α, Scalar.max (Scalar.max x 0) 0 = Scalar.max x 0) {y : Vector α n}
    (hnonneg : ∀ i, nonneg (Scalar.max (y.get i) 0)) : Projects m nonneg y (clamp mask y) where
  project_eq := hproject y
  nonneg_of_marks i hi := by
    rw [get_clamp, if_pos ((hmask i).2 hi)]
    exact hnonneg i
  eq_of_not_marks i hi := by
    rw [get_clamp, if_neg fun h => hi ((hmask i).1 h)]
  project_self := by
    rw [hproject, clamp_clamp hmax]

/-! ## Binary formats -/

section Formats

variable {α : Type} [Scalar α] [Subnormal α] [BinaryFormat α] [MaximumLaws α]

/-- A maximum with zero is zero, or the number itself. -/
theorem max_zero_eq_or (x : α) : Scalar.max x 0 = 0 ∨ Scalar.max x 0 = x := by
  rw [max_zero_eq]
  split
  · rename_i sign hx
    refine Or.inl ?_
    have hsum : UnpackedFloat.add (format α) (.zero sign) (.zero .positive) = .zero .positive := by
      cases sign <;> rfl
    rw [add_eq_pack, hx, unpack_zero, hsum, ← zero_eq_pack]
  · exact Or.inl rfl
  · exact Or.inl rfl
  · exact Or.inr rfl

theorem max_zero_max_zero (x : α) : Scalar.max (Scalar.max x 0) 0 = Scalar.max x 0 := by
  rcases max_zero_eq_or x with h | h
  · rw [h]
    rcases max_zero_eq_or (0 : α) with h0 | h0 <;> exact h0
  · rw [h, h]

/-- Bit for bit a maximum with zero does not change again. -/
theorem Flushed.max_max_zero (x : Flushed α) : Scalar.max (Scalar.max x 0) 0 = Scalar.max x 0 := by
  have hzero : flush (0 : α) = 0 := flush_of_isZero (by rw [unpack_zero]; exact trivial)
  have hflush : flush (Scalar.max (flush x.value) 0) = Scalar.max (flush x.value) 0 := by
    rcases max_zero_eq_or (flush x.value) with h | h
    · rw [h, hzero]
    · rw [h, flush_flush]
  refine Flushed.ext ?_
  rw [Flushed.max_zero_value, Flushed.max_zero_value, hflush, hflush, max_zero_max_zero, hflush]

variable [RoundedFormat α] [PositiveNormal α]

/-- What is stored of a maximum with zero is the greater one of zero and the value that the
arithmetic has for the number. -/
theorem value_value_max_zero (x : Flushed α) : value (Scalar.max x 0).value =
    (value x.value).map fun a => max (flushing α a) 0 := by
  have hzero : value (0 : Flushed α) = some 0 := value_zero
  have hx : value x = (value x.value).map (flushing α) := rfl
  rw [value_value_max, RoundedMaximum.value_max, hzero, hx]
  cases value x.value <;> rfl

theorem le_value_max_zero {x y : Flushed α} (h : Scalar.le x.value y.value = true) :
    Scalar.le (Scalar.max x 0).value (Scalar.max y 0).value = true := by
  obtain ⟨a, b, ha, hb, hab⟩ := (le_iff _ _).1 h
  refine (le_iff _ _).2 ⟨_, _, ?_, ?_, max_le_max (flushing_mono α hab) (le_refl 0)⟩
  · rw [value_value_max_zero, ha, Option.map_some]
  · rw [value_value_max_zero, hb, Option.map_some]

end Formats

/-! ## Exact arithmetic -/

section Exact

variable {𝕜 : Type} [ExactArithmetic 𝕜]

/-- The distance of two vectors. -/
def Vec.distance (u v : Vector 𝕜 n) : 𝕜 :=
  norm (add u (neg v))

/-- The vector is not negative where the mask marks it. -/
def IsAdmissible (m : List Bool) (v : Vector 𝕜 n) : Prop :=
  ∀ i, Marks m i → 0 ≤ v.get i

/-- The maximum with zero is nearer to a number than every other number that is not negative. -/
theorem abs_max_zero_sub_lt {x v : 𝕜} (hv : 0 ≤ v) (hne : v ≠ max x 0) :
    |max x 0 - x| < |v - x| := by
  rcases le_total 0 x with hx | hx
  · rw [max_eq_left hx] at hne ⊢
    rw [sub_self, abs_zero]
    exact abs_pos.2 (sub_ne_zero.2 hne)
  · rw [max_eq_right hx] at hne ⊢
    have hpos : 0 < v := hv.lt_of_ne' hne
    rw [abs_of_nonneg (by linarith), abs_of_nonneg (by linarith)]
    linarith

theorem Vec.sumSquares_lt {u v : Vector 𝕜 n} (hle : ∀ i, |u.get i| ≤ |v.get i|)
    (hlt : ∃ i, |u.get i| < |v.get i|) : sumSquares u < sumSquares v := by
  unfold sumSquares
  rw [dot_eq, dot_eq]
  obtain ⟨i, hi⟩ := hlt
  exact Finset.sum_lt_sum (fun j _ => abs_le_iff_mul_self_le.1 (hle j))
    ⟨i, Finset.mem_univ i, abs_lt_iff_mul_self_lt.1 hi⟩

variable {mask : Vector Bool n} {y z v : Vector 𝕜 n}

theorem abs_clamp_sub_clamp_le (mask : Vector Bool n) (y z : Vector 𝕜 n) (i : Fin n) :
    |(clamp mask y).get i - (clamp mask z).get i| ≤ |y.get i - z.get i| := by
  rw [get_clamp, get_clamp]
  split
  · exact abs_max_sub_max_le_abs (y.get i) (z.get i) 0
  · exact le_rfl

/-- Each clamped component is nearer than every other one that the mask admits. -/
theorem abs_clamp_sub_lt (hmask : ∀ i, mask.get i = true ↔ Marks m i) (hv : IsAdmissible m v)
    {i : Fin n} (hne : v.get i ≠ (clamp mask y).get i) :
    |(clamp mask y).get i - y.get i| < |v.get i - y.get i| := by
  rw [get_clamp] at hne ⊢
  split at hne
  · rename_i hi
    rw [if_pos hi]
    exact abs_max_zero_sub_lt (hv i ((hmask i).1 hi)) hne
  · rename_i hi
    rw [if_neg hi, sub_self, abs_zero]
    exact abs_pos.2 (sub_ne_zero.2 hne)

/-- The clamped vector is nearer than every other one that the mask admits. -/
theorem distance_clamp_lt [ExactRoots 𝕜] (hmask : ∀ i, mask.get i = true ↔ Marks m i)
    (hv : IsAdmissible m v) (hne : v ≠ clamp mask y) :
    Vec.distance (clamp mask y) y < Vec.distance v y := by
  have hentry (u : Vector 𝕜 n) (i : Fin n) :
      (Vec.add u (Vec.neg y)).get i = u.get i - y.get i := by
    rw [Vec.get_add, Vec.get_neg, sub_eq_add_neg]
  obtain ⟨i, hi⟩ : ∃ i, v.get i ≠ (clamp mask y).get i := by
    by_contra hall
    exact hne (Vec.ext_get fun i => not_not.1 (not_exists.1 hall i))
  refine Vec.norm_lt_norm (Vec.sumSquares_lt (fun j => ?_) ⟨i, ?_⟩)
  · rw [hentry, hentry]
    by_cases hj : v.get j = (clamp mask y).get j
    · rw [hj]
    · exact (abs_clamp_sub_lt hmask hv hj).le
  · rw [hentry, hentry]
    exact abs_clamp_sub_lt hmask hv hi

end Exact

/-- With the mask of any policy every vector is projected. In a binary format no component may be
undefined, and then the marked ones are at least zero, the others are the same, a second
projection changes no bit, the order of two vectors is kept, and a marked component has the greater
one of zero and the value that the arithmetic has for it. In exact arithmetic the same holds, no
component of two vectors is farther apart than before, and the projection is nearer to the vector,
as a whole and in each component, than every other vector that is not negative where the mask marks
it. -/
theorem projections_of_policies {machine : Machine} {policy : Setting}
    (hm : projectionMask machine policy n = .ok m) :
    (∀ (α : Type) [Scalar α] [Subnormal α] [BinaryFormat α] [MaximumLaws α] [RoundedFormat α]
      [PositiveNormal α] (y z : Vector (Flushed α) n), (∀ i, (y.get i).IsDefined) →
      (∀ i, (z.get i).IsDefined) → ∃ p q,
        Projects m Flushed.IsNonneg y p ∧ Projects m Flushed.IsNonneg z q ∧
        ((∀ i, Scalar.le (y.get i).value (z.get i).value = true) →
          ∀ i, Scalar.le (p.get i).value (q.get i).value = true) ∧
        ∀ i, Marks m i → value (p.get i).value =
          (value (y.get i).value).map fun a => max (flushing α a) 0) ∧
    ∀ (𝕜 : Type) [ExactArithmetic 𝕜] [ExactRoots 𝕜] (y z : Vector 𝕜 n), ∃ p q,
      Projects m (0 ≤ ·) y p ∧ Projects m (0 ≤ ·) z q ∧
      ((∀ i, y.get i ≤ z.get i) → ∀ i, p.get i ≤ q.get i) ∧
      (∀ i, |p.get i - q.get i| ≤ |y.get i - z.get i|) ∧
      IsAdmissible m p ∧ ∀ v, IsAdmissible m v →
        (v ≠ p → Vec.distance p y < Vec.distance v y) ∧
        ∀ i, v.get i ≠ p.get i → |p.get i - y.get i| < |v.get i - y.get i| := by
  obtain ⟨mask, hmask, hproject⟩ := project_eq_clamp hm
  refine ⟨fun α _ _ _ _ _ _ y z hy hz => ?_, fun 𝕜 _ _ y z => ?_⟩
  · have hprojects {y : Vector (Flushed α) n} (hy : ∀ i, (y.get i).IsDefined) :
        Projects m Flushed.IsNonneg y (clamp mask y) :=
      projects_clamp hmask hproject Flushed.max_max_zero fun i => (hy i).isNonneg_max_zero
    refine ⟨clamp mask y, clamp mask z, hprojects hy, hprojects hz, fun hle i => ?_,
      fun i hi => ?_⟩
    · rw [get_clamp, get_clamp]
      split
      · exact le_value_max_zero (hle i)
      · exact hle i
    · rw [get_clamp, if_pos ((hmask i).2 hi), value_value_max_zero]
  · have hmax : ∀ x : 𝕜, Scalar.max (Scalar.max x 0) 0 = Scalar.max x 0 :=
      fun x => max_eq_left (le_max_right x 0)
    have hprojects (y : Vector 𝕜 n) : Projects m (0 ≤ ·) y (clamp mask y) :=
      projects_clamp hmask hproject hmax fun i => le_max_right (y.get i) 0
    refine ⟨clamp mask y, clamp mask z, hprojects y, hprojects z, fun hle i => ?_,
      abs_clamp_sub_clamp_le mask y z, (hprojects y).nonneg_of_marks, fun v hv =>
      ⟨distance_clamp_lt hmask hv, fun i => abs_clamp_sub_lt hmask hv⟩⟩
    rw [get_clamp, get_clamp]
    split
    · exact max_le_max (hle i) le_rfl
    · exact hle i

/-- The first of two negative components is clamped : in binary64 it becomes zero, and in the plane
the projection is the nearest point of a half-plane. -/
theorem projections_of_first_component :
    projectionMask {} (.list [.int 1, .int 0]) 2 = .ok [true, false] ∧
    Projects [true, false] Flushed.IsNonneg (#v[⟨-1⟩, ⟨-2⟩] : Vector Binary64 2) #v[0, ⟨-2⟩] ∧
    ∃ p : Vector ℝ 2, Projects [true, false] (0 ≤ ·) #v[-3, -4] p ∧
      ∀ v, IsAdmissible [true, false] v → v ≠ p →
        Vec.distance p #v[-3, -4] < Vec.distance v #v[-3, -4] := by
  have hm : projectionMask {} (.list [.int 1, .int 0]) 2 = .ok [true, false] := rfl
  obtain ⟨hformats, hexact⟩ := projections_of_policies (n := 2) hm
  have hy : ∀ i, ((#v[⟨-1⟩, ⟨-2⟩] : Vector Binary64 2).get i).IsDefined := by
    intro i
    fin_cases i <;> exact UnpackedFloat.noConfusion
  obtain ⟨p, -, hp, -⟩ := hformats Float _ _ hy hy
  have hclamp : clamp #v[true, false] (#v[⟨-1⟩, ⟨-2⟩] : Vector Binary64 2) = #v[0, ⟨-2⟩] := by
    decide +kernel
  obtain rfl := Except.ok.inj (hp.project_eq.symm.trans (congrArg Except.ok hclamp))
  obtain ⟨q, -, hq, -, -, -, -, hnearest⟩ := hexact ℝ #v[-3, -4] #v[-3, -4]
  exact ⟨hm, hp, q, hq, fun v hv hne => (hnearest v hv).1 hne⟩

end Stationary
