import Stationary.Proofs.Conversions

/-!
# Rounding errors

Short multiples of a fixed power of two are numbers of binary64 and of binary32, so rounding leaves
them alone (`KeepsShort`). As rounding is monotone, a value between two of them stays
there, and a value that is not too large moves by at most their distance
(`exists_roundValue_near`). So lower bounds go through sums, squares and roots at the cost of this
distance (`atLeast_add_short`, `atLeast_mul_self_short`, `atLeast_sqrt_short`).
-/

namespace Stationary

open RoundedArithmetic BinaryFormat
open Float.Model (Format UnpackedFloat)

/-- The distance between short numbers, `2⁻¹⁷`. -/
noncomputable def shortUnit : ℝ := 1 / 131072

theorem shortUnit_pos : 0 < shortUnit := by
  unfold shortUnit
  norm_num

/-- The short numbers are values of the arithmetic. -/
class KeepsShort (α : Type) [Scalar α] [RoundedArithmetic α] : Prop where
  roundValue_short (k : ℤ) (hk : |k| < 16777216) :
    roundValue α (k * shortUnit : ℝ) = (k * shortUnit : ℝ)

/-! ## Formats with enough digits -/

theorem rounded_short {f : Format} (hdigits : 24 ≤ f.mantissaBits) (hmin : f.minExponent ≤ -17)
    (hbias : 6 ≤ f.exponentBias) (k : ℤ) (hk : |k| < 16777216) :
    rounded f (k * shortUnit) = (k * shortUnit : ℝ) := by
  have habs : |(k : ℝ) * shortUnit| = (k.natAbs : ℕ) * 2 ^ (-17 : ℤ) := by
    rw [abs_mul, abs_of_pos shortUnit_pos, Nat.cast_natAbs, Int.cast_abs, shortUnit]
    norm_num
  have hnat : k.natAbs < 2 ^ 24 := by
    rw [Int.abs_eq_natAbs] at hk
    omega
  refine rounded_of_isDyadic ⟨k.natAbs, -17, ?_, hmin, habs⟩ ?_
  · exact hnat.trans_le (Nat.pow_le_pow_right two_pos hdigits)
  · have hcast : (k.natAbs : ℝ) < 2 ^ 24 := by exact_mod_cast hnat
    rw [habs]
    calc (k.natAbs : ℝ) * 2 ^ (-17 : ℤ) < 2 ^ 24 * 2 ^ (-17 : ℤ) := by gcongr
      _ = 2 ^ 7 := by norm_num
      _ ≤ bound f := pow_le_pow_right₀ one_le_two (by omega)

instance : KeepsShort Float where
  roundValue_short k hk := rounded_short (by decide) (by decide) (by decide) k hk

instance : KeepsShort Float32 where
  roundValue_short k hk := rounded_short (by decide) (by decide) (by decide) k hk

/-- The smallest normal number is not above the short unit. -/
class SmallNormal (α : Type) [Scalar α] [Subnormal α] [RoundedArithmetic α] [PositiveNormal α] :
    Prop where
  threshold_le : PositiveNormal.threshold α ≤ shortUnit

theorem smallestNormal_le_shortUnit {f : Format}
    (h : f.minExponent + f.mantissaBitsWithoutImplicit ≤ -17) : smallestNormal f ≤ shortUnit := by
  have hle : (2 : ℝ) ^ (f.minExponent + f.mantissaBitsWithoutImplicit) ≤ 2 ^ (-17 : ℤ) :=
    zpow_le_zpow_right₀ one_le_two h
  exact hle.trans (by norm_num [shortUnit])

instance : SmallNormal Float where
  threshold_le := smallestNormal_le_shortUnit (f := format Float) (by decide)

instance : SmallNormal Float32 where
  threshold_le := smallestNormal_le_shortUnit (f := format Float32) (by decide)

instance {α : Type} [Scalar α] [Subnormal α] [RoundedArithmetic α] [PositiveNormal α]
    [SmallNormal α] [KeepsShort α] : KeepsShort (Flushed α) where
  roundValue_short k hk := by
    show flushing α (roundValue α (k * shortUnit : ℝ)) = _
    rw [KeepsShort.roundValue_short k hk, flushing, flushedValue]
    split
    · -- only zero is a multiple of the unit that is smaller
      rename_i hsmall
      rw [← EReal.coe_neg, ← EReal.coe_strictMono.monotone.map_max, ← abs_eq_max_neg,
        EReal.coe_lt_coe_iff, abs_mul, abs_of_pos shortUnit_pos] at hsmall
      have hlt : |(k : ℝ)| * shortUnit < 1 * shortUnit := by
        rw [one_mul]
        exact hsmall.trans_le SmallNormal.threshold_le
      have hone : |(k : ℝ)| < 1 := lt_of_mul_lt_mul_right hlt shortUnit_pos.le
      have hzero : k = 0 := Int.abs_lt_one_iff.1 (by exact_mod_cast hone)
      rw [hzero, Int.cast_zero, zero_mul]
      rfl
    · rfl

/-! ## Values near exact ones -/

namespace RoundedArithmetic

variable {α : Type} [Scalar α] [RoundedArithmetic α] {x y : α} {p q r a b : ℝ}

theorem value_add_coe (hx : value x = some (a : EReal)) (hy : value y = some (b : EReal)) :
    value (x + y) = some (roundValue α (a + b : ℝ)) := by
  rw [value_add, hx, hy, sum?, if_neg]
  · rfl
  · rintro (⟨h, -⟩ | ⟨h, -⟩)
    · exact EReal.coe_ne_top a h
    · exact EReal.coe_ne_bot a h

theorem value_sub_coe (hx : value x = some (a : EReal)) (hy : value y = some (b : EReal)) :
    value (x - y) = some (roundValue α (a - b : ℝ)) := by
  rw [value_sub, hx, hy, Option.map_some, sum?, if_neg]
  · rfl
  · rintro (⟨h, -⟩ | ⟨h, -⟩)
    · exact EReal.coe_ne_top a h
    · exact EReal.coe_ne_bot a h

/-- A number that is not as large as a bound has a real value. -/
theorem exists_value_of_not_atLeast_abs (h : ¬AtLeast (q : EReal) (Scalar.abs x)) :
    ∃ a : ℝ, value x = some (a : EReal) ∧ |a| < q := by
  unfold AtLeast at h
  push Not at h
  obtain ⟨_, hc, hlt⟩ := h
  rw [value_abs, Option.map_eq_some_iff] at hc
  obtain ⟨c, hc, rfl⟩ := hc
  obtain ⟨h₁, h₂⟩ := max_lt_iff.1 hlt
  lift c to ℝ using ⟨(h₁.trans (EReal.coe_lt_top q)).ne, fun hbot => by
    rw [hbot, EReal.neg_bot] at h₂
    exact not_top_lt h₂⟩
  rw [EReal.coe_lt_coe_iff] at h₁
  rw [← EReal.coe_neg, EReal.coe_lt_coe_iff] at h₂
  exact ⟨c, hc, abs_lt.2 ⟨by linarith, h₁⟩⟩

theorem atLeast_abs_of_value (h : value x = some (a : EReal)) :
    AtLeast ((|a| : ℝ) : EReal) (Scalar.abs x) := by
  intro c hc
  rw [value_abs, h, Option.map_some] at hc
  obtain rfl := Option.some.inj hc
  rw [abs_eq_max_neg, EReal.coe_strictMono.monotone.map_max, EReal.coe_neg]

theorem atLeast_abs_neg {q : EReal} (h : AtLeast q (Scalar.abs x)) :
    AtLeast q (Scalar.abs (-x)) := by
  intro c hc
  rw [value_abs, value_neg, Option.map_map, Option.map_eq_some_iff] at hc
  obtain ⟨d, hd, rfl⟩ := hc
  rw [Function.comp_apply, neg_neg, max_comm]
  exact h _ (by rw [value_abs, hd, Option.map_some])

/-- A bound of the magnitude is a bound of the square. -/
theorem atLeast_mul_self {q : EReal} (h : AtLeast q (Scalar.abs x)) (hq : 0 ≤ q) :
    AtLeast (roundValue α (q * q)) (x * x) := by
  intro c hc
  rw [value_mul, Option.map_eq_some_iff] at hc
  obtain ⟨_, hproduct, rfl⟩ := hc
  obtain ⟨d, e, hd, he, -, rfl⟩ := exists_product hproduct
  obtain rfl := Option.some.inj (hd.symm.trans he)
  refine roundValue_mono ?_
  rcases le_max_iff.1 (h (max d (-d)) (by rw [value_abs, hd, Option.map_some])) with hle | hle
  · exact mul_le_mul hle hle hq (hq.trans hle)
  · rw [← neg_mul_neg d d]
    exact mul_le_mul hle hle hq (hq.trans hle)

theorem nonneg_mul_self (x : α) : AtLeast 0 (x * x) := by
  have h := atLeast_mul_self (nonneg_abs x) le_rfl
  rwa [zero_mul, roundValue_zero] at h

/-- A bound of the square of a root. -/
theorem atLeast_sqrt (h : AtLeast ((r * r : ℝ) : EReal) x) :
    AtLeast (roundValue α (r : EReal)) (Scalar.sqrt x) := by
  intro c hc
  rw [value_sqrt, Option.map_eq_some_iff] at hc
  obtain ⟨d, hd, rfl⟩ := hc
  refine roundValue_mono ?_
  unfold root? at hd
  split at hd
  · rename_i s hs
    have hle := h _ hs
    split at hd
    · cases hd
    · split at hd
      · obtain rfl := Option.some.inj hd
        exact le_top
      · rename_i hneg htop
        obtain rfl := Option.some.inj hd
        lift s to ℝ using ⟨htop, (EReal.bot_lt_zero.trans_le (not_lt.1 hneg)).ne'⟩
        rw [EReal.toReal_coe]
        exact EReal.coe_le_coe_iff.2 (Real.le_sqrt_of_sq_le
          (by rw [sq]; exact EReal.coe_le_coe_iff.1 hle))
  · cases hd

/-- Next to every number that is not too large there is a short one. -/
theorem exists_short_between (hq : |q| ≤ 101) :
    ∃ k : ℤ, |k| < 16777216 ∧ q ≤ k * shortUnit ∧ k * shortUnit ≤ q + shortUnit := by
  have hu := shortUnit_pos
  have hunit : shortUnit = 1 / 131072 := rfl
  obtain ⟨hq₁, hq₂⟩ := abs_le.1 hq
  have hlow : q ≤ ⌈q / shortUnit⌉ * shortUnit := (div_le_iff₀ hu).1 (Int.le_ceil _)
  have hhigh : ⌈q / shortUnit⌉ * shortUnit < q + shortUnit := by
    have hlt := mul_lt_mul_of_pos_right (Int.ceil_lt_add_one (q / shortUnit)) hu
    rwa [add_mul, one_mul, div_mul_cancel₀ _ hu.ne'] at hlt
  refine ⟨⌈q / shortUnit⌉, abs_lt.2 ⟨?_, ?_⟩, hlow, hhigh.le⟩
  · have hlt : (-16777216 : ℝ) < ⌈q / shortUnit⌉ := by
      rw [hunit] at hlow ⊢
      linarith
    exact_mod_cast hlt
  · have hlt : (⌈q / shortUnit⌉ : ℝ) < 16777216 := by
      rw [hunit] at hhigh ⊢
      linarith
    exact_mod_cast hlt

variable [KeepsShort α]

variable (α) in
/-- What is above a number by the unit is not rounded below it. -/
theorem le_roundValue (hq : |q| ≤ 100) (h : q + shortUnit ≤ a) :
    (q : EReal) ≤ roundValue α (a : EReal) := by
  obtain ⟨k, hk, hlow, hhigh⟩ := exists_short_between (hq.trans (by norm_num))
  calc (q : EReal) ≤ (k * shortUnit : ℝ) := EReal.coe_le_coe_iff.2 hlow
    _ = roundValue α (k * shortUnit : ℝ) := (KeepsShort.roundValue_short k hk).symm
    _ ≤ roundValue α (a : EReal) := roundValue_mono (EReal.coe_le_coe_iff.2 (hhigh.trans h))

variable (α) in
/-- What is below a number by the unit is not rounded above it. -/
theorem roundValue_le (hq : |q| ≤ 100) (h : a + shortUnit ≤ q) :
    roundValue α (a : EReal) ≤ (q : EReal) := by
  have hunit : shortUnit = 1 / 131072 := rfl
  have hq' : |q - shortUnit| ≤ 101 := by
    rw [abs_le] at hq ⊢
    constructor <;> linarith
  obtain ⟨k, hk, hlow, hhigh⟩ := exists_short_between hq'
  calc roundValue α (a : EReal) ≤ roundValue α (k * shortUnit : ℝ) :=
        roundValue_mono (EReal.coe_le_coe_iff.2 (by linarith))
    _ = (k * shortUnit : ℝ) := KeepsShort.roundValue_short k hk
    _ ≤ (q : EReal) := EReal.coe_le_coe_iff.2 (by linarith)

variable (α) in
/-- A value that is not too large moves by at most the unit. -/
theorem exists_roundValue_near (ha : |a| ≤ 99) :
    ∃ t : ℝ, roundValue α (a : EReal) = t ∧ |t - a| ≤ shortUnit := by
  have hunit : shortUnit = 1 / 131072 := rfl
  obtain ⟨ha₁, ha₂⟩ := abs_le.1 ha
  have hlow := le_roundValue α (q := a - shortUnit) (a := a)
    (abs_le.2 ⟨by linarith, by linarith⟩) (by linarith)
  have hhigh := roundValue_le α (q := a + shortUnit) (a := a)
    (abs_le.2 ⟨by linarith, by linarith⟩) le_rfl
  generalize roundValue α (a : EReal) = t at hlow hhigh
  lift t to ℝ using ⟨(hhigh.trans_lt (EReal.coe_lt_top _)).ne,
    ((EReal.bot_lt_coe _).trans_le hlow).ne'⟩
  rw [EReal.coe_le_coe_iff] at hlow hhigh
  exact ⟨t, rfl, abs_le.2 ⟨by linarith, by linarith⟩⟩

/-- A sum loses at most the unit of its lower bound. -/
theorem atLeast_add_short (hx : AtLeast (p : EReal) x) (hy : AtLeast (q : EReal) y)
    (hr : |r| ≤ 100) (h : r + shortUnit ≤ p + q) : AtLeast (r : EReal) (x + y) :=
  (atLeast_add hx hy).mono (le_roundValue α hr h)

/-- So does a square. -/
theorem atLeast_mul_self_short (hx : AtLeast (q : EReal) (Scalar.abs x)) (hq : 0 ≤ q)
    (hr : |r| ≤ 100) (h : r + shortUnit ≤ q * q) : AtLeast (r : EReal) (x * x) :=
  (atLeast_mul_self hx (EReal.coe_nonneg.2 hq)).mono (le_roundValue α hr h)

/-- So does a root. -/
theorem atLeast_sqrt_short (hx : AtLeast ((q * q : ℝ) : EReal) x) (hr : |r| ≤ 100)
    (h : r + shortUnit ≤ q) : AtLeast (r : EReal) (Scalar.sqrt x) :=
  (atLeast_sqrt hx).mono (le_roundValue α hr h)

end RoundedArithmetic

end Stationary
