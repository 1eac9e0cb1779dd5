import Stationary.Proofs.BinaryFormat
import Stationary.Proofs.Canonical

/-!
# Rounded operations

The operations on unpacked numbers round the exact result : a sum
(`rounds_add`), a product (`rounds_mul`) and a square root (`rounds_sqrt`) of numbers of a
format, and an integer (`rounds_normalize`). A difference is the sum with the number of other sign
(`unpacked_sub_eq`). Where an argument is infinite or not a number the results follow the signs.
`sum?`, `product?` and `root?` say all of it for values : whether there is a result,
and which number it is before it is rounded.
-/

namespace Stationary

open Float.Model (Format UnpackedFloat totalExponent)
open Float.Model.UnpackedFloat

variable {f : Format} {u v : UnpackedFloat}

/-! ## Rounding exact results -/

theorem decreaseExponent_of_le (m : ℕ) {e t : ℤ} (h : t ≤ e) :
    decreaseExponent m e t = (m * 2 ^ (e - t).toNat, t) := by
  unfold decreaseExponent
  simp only [Nat.shiftLeft_eq, Prod.mk.injEq, true_and]
  omega

theorem decreaseExponent_of_ge (m : ℕ) {e t : ℤ} (h : e ≤ t) :
    decreaseExponent m e t = (m, e) := by
  unfold decreaseExponent
  rw [show (e - t).toNat = 0 by omega]
  simp

theorem mul_two_zpow (m : ℕ) {e t : ℤ} (h : t ≤ e) :
    ((m * 2 ^ (e - t).toNat : ℕ) : ℝ) * 2 ^ t = m * 2 ^ e := by
  rw [two_zpow_eq_mul h, Nat.cast_mul, mul_assoc]

theorem log2_mul_two_pow {m : ℕ} (hm : 0 < m) (k : ℕ) : (m * 2 ^ k).log2 = m.log2 + k := by
  induction k with
  | zero => rw [pow_zero, mul_one, Nat.add_zero]
  | succ k ih =>
    rw [pow_succ, ← mul_assoc, mul_comm _ 2, Nat.log2_two_mul (by positivity), ih, Nat.add_assoc]

theorem totalExponent_mul_two_pow {m : ℕ} (hm : 0 < m) {e t : ℤ} (h : t ≤ e) :
    totalExponent (m * 2 ^ (e - t).toNat) t = totalExponent m e := by
  unfold totalExponent
  rw [log2_mul_two_pow hm]
  push_cast
  omega

/-- A number that is given exactly is rounded if its exponent need not decrease. -/
theorem rounds_exact (s : Sign) {m : ℕ} {e : ℤ} (hm : 0 < m)
    (he : e ≤ f.targetExponent (totalExponent m e)) :
    Rounds f (signed s (m * 2 ^ e)) (roundWithAccuracy f s m e .exact) := by
  refine rounds_roundWithAccuracy hm ?_ he
  rw [mul_div_assoc, div_self (by positivity), mul_one]
  exact Represents.natCast m

theorem rounds_round (s : Sign) {m : ℕ} (e : ℤ) (hm : 0 < m) :
    Rounds f (signed s (m * 2 ^ e)) (UnpackedFloat.round f s m e) := by
  unfold UnpackedFloat.round
  rcases le_total (f.targetExponent (totalExponent m e)) e with h | h
  · have htotal := totalExponent_mul_two_pow hm h
    simp only [decreaseExponent_of_le m h]
    rw [← mul_two_zpow m h]
    exact rounds_exact s (by positivity) (by rw [htotal])
  · simp only [decreaseExponent_of_ge m h]
    exact rounds_exact s hm h

theorem rounds_zero (f : Format) (s : Sign) : Rounds f 0 (.zero s) where
  canonical := trivial
  valueOf_eq := by
    rw [signedNearest, if_pos le_rfl, nearest_zero]
    rfl

/-- An integer multiple of a power of two is rounded. -/
theorem rounds_normalize (f : Format) (k : ℤ) (e : ℤ) (s : Sign) :
    Rounds f (k * 2 ^ e) (UnpackedFloat.normalize f k e s) := by
  unfold UnpackedFloat.normalize
  rcases lt_trichotomy k 0 with hk | rfl | hk
  · rw [compare_lt_iff_lt.2 hk]
    have hcast : (((-k).toNat : ℕ) : ℝ) = -k := by
      have hnat : ((-k).toNat : ℤ) = -k := Int.toNat_of_nonneg (by omega)
      exact_mod_cast hnat
    have h := rounds_round (f := f) .negative e (m := (-k).toNat) (by omega)
    rwa [signed, hcast, neg_mul, neg_neg] at h
  · rw [Int.cast_zero, zero_mul]
    exact rounds_zero f s
  · rw [compare_gt_iff_gt.2 hk]
    have hcast : ((k.toNat : ℕ) : ℝ) = k := by
      have hnat : (k.toNat : ℤ) = k := Int.toNat_of_nonneg (by omega)
      exact_mod_cast hnat
    have h := rounds_round (f := f) .positive e (m := k.toNat) (by omega)
    rwa [signed, hcast] at h

/-- A number of the format is rounded already. -/
theorem rounds_of_canonical (hu : Canonical f u) {x : ℝ} (h : valueOf u = some (x : EReal)) :
    Rounds f x u := by
  refine ⟨hu, ?_⟩
  rcases cases_of_valueOf h with ⟨s, rfl, rfl⟩ | ⟨s, m, e, hm, rfl, rfl⟩
  · exact (rounds_zero f s).valueOf_eq
  · rw [signedNearest_signed f s (by positivity), nearest_of_isDyadic]
    · exact h
    · exact ⟨m, e, hu.lt_pow, hu.minExponent_le, rfl⟩

/-! ## Finite arguments -/

theorem signed_apply (s : Sign) (n : ℤ) (x : ℝ) : ((s.apply n : ℤ) : ℝ) * x = signed s (n * x) := by
  cases s with
  | positive => rfl
  | negative => rw [signed, Sign.apply, Int.cast_neg, neg_mul]

theorem signed_mul (s t : Sign) (x y : ℝ) : signed (s * t) (x * y) = signed s x * signed t y := by
  cases s <;> cases t
  · exact (neg_mul_neg x y).symm
  · exact (neg_mul x y).symm
  · exact (mul_neg x y).symm
  · rfl

/-- A sum is rounded. -/
theorem rounds_add (hu : Canonical f u) (hv : Canonical f v) {x y : ℝ}
    (hx : valueOf u = some (x : EReal)) (hy : valueOf v = some (y : EReal)) :
    Rounds f (x + y) (UnpackedFloat.add f u v) := by
  rcases cases_of_valueOf hx with ⟨s, rfl, rfl⟩ | ⟨s, m, e, hm, rfl, rfl⟩
  · rcases cases_of_valueOf hy with ⟨t, rfl, rfl⟩ | ⟨t, m', e', hm', rfl, rfl⟩
    · rw [add_zero]
      cases s <;> cases t <;> exact rounds_zero f _
    · rw [zero_add]
      exact rounds_of_canonical hv hy
  · rcases cases_of_valueOf hy with ⟨t, rfl, rfl⟩ | ⟨t, m', e', hm', rfl, rfl⟩
    · rw [add_zero]
      exact rounds_of_canonical hu hx
    · -- both mantissas are brought to the lower exponent
      have h := rounds_normalize f (s.apply ((m * 2 ^ (e - min e e').toNat : ℕ) : ℤ) +
        t.apply ((m' * 2 ^ (e' - min e e').toNat : ℕ) : ℤ)) (min e e') .positive
      rw [Int.cast_add, add_mul, signed_apply, signed_apply, Int.cast_natCast, Int.cast_natCast,
        mul_two_zpow m (min_le_left e e'), mul_two_zpow m' (min_le_right e e')] at h
      simp only [UnpackedFloat.add, decreaseExponent_of_le m (min_le_left e e'),
        decreaseExponent_of_le m' (min_le_right e e')]
      exact h

/-- The exponent of a product of numbers of the format need not decrease. -/
theorem add_le_targetExponent (hf : 0 < f.exponentBias) {m m' : ℕ} {e e' : ℤ} (hm : 0 < m)
    (hm' : 0 < m') (h : IsCanonical f m e) (h' : IsCanonical f m' e') :
    e + e' ≤ f.targetExponent (totalExponent (m * m') (e + e')) := by
  have hpos : 0 < m * m' := by positivity
  unfold Format.targetExponent totalExponent Format.mantissaBits
  by_cases hdigits : 2 ^ f.mantissaBitsWithoutImplicit ≤ m * m'
  · have hlog := (Nat.le_log2 hpos.ne').2 hdigits
    omega
  · have hmin := minExponent_eq f
    have hlow : e = f.minExponent := by
      refine h.pow_le_or.resolve_left fun hle => hdigits (hle.trans ?_)
      exact Nat.le_mul_of_pos_right m hm'
    have hlow' : e' = f.minExponent := by
      refine h'.pow_le_or.resolve_left fun hle => hdigits (hle.trans ?_)
      exact Nat.le_mul_of_pos_left m' hm
    omega

/-- A product is rounded. -/
theorem rounds_mul (hf : 0 < f.exponentBias) (hu : Canonical f u) (hv : Canonical f v) {x y : ℝ}
    (hx : valueOf u = some (x : EReal)) (hy : valueOf v = some (y : EReal)) :
    Rounds f (x * y) (UnpackedFloat.mul f u v) := by
  rcases cases_of_valueOf hx with ⟨s, rfl, rfl⟩ | ⟨s, m, e, hm, rfl, rfl⟩
  · rw [zero_mul]
    rcases cases_of_valueOf hy with ⟨t, rfl, rfl⟩ | ⟨t, m', e', hm', rfl, rfl⟩ <;>
      exact rounds_zero f _
  · rcases cases_of_valueOf hy with ⟨t, rfl, rfl⟩ | ⟨t, m', e', hm', rfl, rfl⟩
    · rw [mul_zero]
      exact rounds_zero f _
    · have h := rounds_exact (f := f) (s * t) (m := m * m') (e := e + e') (by positivity)
        (add_le_targetExponent hf hm hm' hu hv)
      rw [zpow_add₀ two_ne_zero, Nat.cast_mul, mul_mul_mul_comm, signed_mul] at h
      exact h

theorem sqrt_eq_natSqrt_iff (m : ℕ) :
    Real.sqrt m - Nat.sqrt m = 0 ↔ m - Nat.sqrt m * Nat.sqrt m = 0 := by
  have hlow : Nat.sqrt m * Nat.sqrt m ≤ m := Nat.sqrt_le m
  rw [sub_eq_zero, Real.sqrt_eq_iff_mul_self_eq (Nat.cast_nonneg m) (Nat.cast_nonneg _)]
  constructor
  · intro h
    have hnat : m = Nat.sqrt m * Nat.sqrt m := by exact_mod_cast h
    omega
  · intro h
    exact_mod_cast (by omega : m = Nat.sqrt m * Nat.sqrt m)

/-- A root is below the middle of two natural numbers exactly if its square is. -/
theorem sqrt_sub_lt_half_iff (m : ℕ) : Real.sqrt m - Nat.sqrt m < 1 / 2 ↔
    m - Nat.sqrt m * Nat.sqrt m ≤ Nat.sqrt m := by
  have hlow : Nat.sqrt m * Nat.sqrt m ≤ m := Nat.sqrt_le m
  have hsquare : Real.sqrt m * Real.sqrt m = m := Real.mul_self_sqrt (Nat.cast_nonneg m)
  have hpos : 0 ≤ Real.sqrt m := Real.sqrt_nonneg _
  have hroot : (0 : ℝ) ≤ Nat.sqrt m := Nat.cast_nonneg _
  constructor
  · intro h
    by_contra hnot
    have hnat : (Nat.sqrt m * Nat.sqrt m + Nat.sqrt m + 1 : ℝ) ≤ m := by
      exact_mod_cast (by omega : Nat.sqrt m * Nat.sqrt m + Nat.sqrt m + 1 ≤ m)
    nlinarith
  · intro h
    have hnat : (m : ℝ) ≤ Nat.sqrt m * Nat.sqrt m + Nat.sqrt m := by
      exact_mod_cast (by omega : m ≤ Nat.sqrt m * Nat.sqrt m + Nat.sqrt m)
    nlinarith

/-- A root is never in the middle of two natural numbers. -/
theorem sqrt_sub_ne_half (m : ℕ) : Real.sqrt m - Nat.sqrt m ≠ 1 / 2 := by
  have hsquare : Real.sqrt m * Real.sqrt m = m := Real.mul_self_sqrt (Nat.cast_nonneg m)
  intro h
  rw [sub_eq_iff_eq_add.1 h] at hsquare
  have hfour : ((4 * m : ℕ) : ℝ) = (4 * (Nat.sqrt m * Nat.sqrt m + Nat.sqrt m) + 1 : ℕ) := by
    push_cast
    linarith
  have hnat : 4 * m = 4 * (Nat.sqrt m * Nat.sqrt m + Nat.sqrt m) + 1 := by exact_mod_cast hfour
  omega

/-- What a root in natural numbers leaves out. -/
theorem represents_sqrt (m : ℕ) : Represents (ExtendedMantissa.ofMantissaAndAccuracy (Nat.sqrt m)
    (if m - Nat.sqrt m * Nat.sqrt m = 0 then .exact
      else .inexact (if m - Nat.sqrt m * Nat.sqrt m ≤ Nat.sqrt m then .lt else .gt)))
    (Real.sqrt m) := by
  have hfloor : ⌊Real.sqrt m⌋₊ = Nat.sqrt m := Real.nat_floor_real_sqrt_eq_nat_sqrt
  have hexact := sqrt_eq_natSqrt_iff m
  by_cases hzero : m - Nat.sqrt m * Nat.sqrt m = 0
  · rw [if_pos hzero, sub_eq_zero.1 (hexact.2 hzero)]
    exact Represents.natCast _
  have hrest : Real.sqrt m - Nat.sqrt m ≠ 0 := fun h => hzero (hexact.1 h)
  rw [if_neg hzero]
  by_cases hle : m - Nat.sqrt m * Nat.sqrt m ≤ Nat.sqrt m
  · have hlt := (sqrt_sub_lt_half_iff m).2 hle
    rw [if_pos hle]
    refine ⟨Real.sqrt_nonneg _, hfloor.symm, ?_, ?_⟩
    · rw [hfloor]
      simp only [ExtendedMantissa.ofMantissaAndAccuracy, Bool.false_eq_true, false_iff, not_le]
      exact hlt
    · rw [hfloor]
      simp only [ExtendedMantissa.ofMantissaAndAccuracy, true_iff]
      exact ⟨hrest, hlt.ne⟩
  · have hhalf := not_lt.1 fun h => hle ((sqrt_sub_lt_half_iff m).1 h)
    rw [if_neg hle]
    refine ⟨Real.sqrt_nonneg _, hfloor.symm, ?_, ?_⟩
    · rw [hfloor]
      simp only [ExtendedMantissa.ofMantissaAndAccuracy, true_iff]
      exact hhalf
    · rw [hfloor]
      simp only [ExtendedMantissa.ofMantissaAndAccuracy, true_iff]
      exact ⟨hrest, sqrt_sub_ne_half m⟩

/-- The exponent of a root with enough digits need not decrease. -/
theorem le_targetExponent_sqrt {m : ℕ} {t : ℤ} (hm : 0 < m)
    (h : t ≤ f.targetExponent ((totalExponent m (2 * t) + 1) / 2)) :
    t ≤ f.targetExponent (totalExponent (Nat.sqrt m) t) := by
  have hlog : m.log2 / 2 ≤ (Nat.sqrt m).log2 := by
    rw [Nat.le_log2 (Nat.sqrt_pos.2 hm).ne', Nat.le_sqrt, ← pow_add]
    exact (Nat.pow_le_pow_right two_pos (by omega)).trans (Nat.log2_self_le hm.ne')
  unfold Format.targetExponent totalExponent at h ⊢
  omega

/-- A square root is rounded. -/
theorem rounds_sqrt {x : ℝ} (hx : valueOf u = some (x : EReal)) (hnonneg : 0 ≤ x) :
    Rounds f (Real.sqrt x) (UnpackedFloat.sqrt f u) := by
  rcases cases_of_valueOf hx with ⟨s, rfl, rfl⟩ | ⟨s, m, e, hm, rfl, rfl⟩
  · rw [Real.sqrt_zero]
    exact rounds_zero f s
  · have hpos : (0 : ℝ) < m * 2 ^ e := by positivity
    cases s with
    | negative =>
      rw [signed] at hnonneg
      linarith
    | positive =>
      set t := min (e.ediv 2) (f.targetExponent ((totalExponent m e + 1).ediv 2)) with ht
      have hdiv : t ≤ e / 2 := min_le_left _ _
      have htarget : t ≤ f.targetExponent ((totalExponent m e + 1) / 2) := min_le_right _ _
      have hte : 2 * t ≤ e := by omega
      -- the number is a multiple of an even power of two
      set k := m * 2 ^ (e - 2 * t).toNat with hk
      have hkpos : 0 < k := by positivity
      have hsqrt : Real.sqrt (m * 2 ^ e) / 2 ^ t = Real.sqrt k := by
        rw [← mul_two_zpow m hte, ← hk, two_mul, zpow_add₀ two_ne_zero,
          Real.sqrt_mul (Nat.cast_nonneg _), Real.sqrt_mul_self (by positivity), mul_div_assoc,
          div_self (by positivity), mul_one]
      have hrep := represents_sqrt k
      rw [← hsqrt] at hrep
      rw [← totalExponent_mul_two_pow hm hte] at htarget
      have h := rounds_roundWithAccuracy (s := .positive) (Nat.sqrt_pos.2 hkpos) hrep
        (le_targetExponent_sqrt hkpos htarget)
      simp only [UnpackedFloat.sqrt, sqrtCore, ← ht, Nat.shiftLeft_eq, ← hk]
      exact h

/-! ## All arguments -/

/-- The sum of two values, unless they are infinities of different signs. -/
noncomputable def sum? : Option EReal → Option EReal → Option EReal
  | some x, some y => if x = ⊤ ∧ y = ⊥ ∨ x = ⊥ ∧ y = ⊤ then none else some (x + y)
  | _, _ => none

/-- The product of two values, unless one is zero and the other infinite. -/
noncomputable def product? : Option EReal → Option EReal → Option EReal
  | some x, some y =>
    if x = 0 ∧ (y = ⊤ ∨ y = ⊥) ∨ y = 0 ∧ (x = ⊤ ∨ x = ⊥) then none else some (x * y)
  | _, _ => none

/-- The square root of a value that is not negative. -/
noncomputable def root? : Option EReal → Option EReal
  | some x => if x < 0 then none else if x = ⊤ then some ⊤ else some (Real.sqrt x.toReal)
  | none => none

/-- The nearest value of the format to a value. -/
noncomputable def roundedValue (f : Format) : EReal → EReal :=
  EReal.rec (motive := fun _ => EReal) ⊥ (rounded f) ⊤

@[simp] theorem roundedValue_bot (f : Format) : roundedValue f ⊥ = ⊥ := rfl

@[simp] theorem roundedValue_top (f : Format) : roundedValue f ⊤ = ⊤ := rfl

@[simp] theorem roundedValue_coe (f : Format) (x : ℝ) : roundedValue f x = rounded f x := rfl

theorem roundedValue_mono (f : Format) : Monotone (roundedValue f) := by
  intro x y h
  induction x with
  | bot => exact bot_le
  | top =>
    rw [top_le_iff.1 h]
  | coe x =>
    induction y with
    | bot => exact absurd h (EReal.bot_lt_coe x).not_ge
    | top => exact le_top
    | coe y => exact rounded_mono (EReal.coe_le_coe_iff.1 h)

/-- A number is none, infinite, or has a real value. -/
theorem value_cases (u : UnpackedFloat) :
    u = .notANumber ∨ (∃ s, u = .infinity s) ∨ ∃ x : ℝ, valueOf u = some (x : EReal) := by
  cases u with
  | notANumber => exact Or.inl rfl
  | infinity s => exact Or.inr (Or.inl ⟨s, rfl⟩)
  | zero s => exact Or.inr (Or.inr ⟨0, rfl⟩)
  | finite s m e hm => exact Or.inr (Or.inr ⟨_, rfl⟩)

theorem roundedValue_valueOf (hf : 0 < f.exponentBias) (hu : InFormat f u) :
    (valueOf u).map (roundedValue f) = valueOf u := by
  rcases value_cases u with rfl | ⟨s, rfl⟩ | ⟨x, hx⟩
  · rfl
  · cases s <;> rfl
  · rw [hx, Option.map_some, roundedValue_coe, rounded_of_inFormat hf hu hx]

theorem add_infinity (s : Sign) {x : ℝ} (h : valueOf u = some (x : EReal)) :
    UnpackedFloat.add f (.infinity s) u = .infinity s ∧
      UnpackedFloat.add f u (.infinity s) = .infinity s := by
  rcases cases_of_valueOf h with ⟨t, rfl, rfl⟩ | ⟨t, m, e, hm, rfl, rfl⟩ <;> exact ⟨rfl, rfl⟩

theorem canonical_add (hu : Canonical f u) (hv : Canonical f v) :
    Canonical f (UnpackedFloat.add f u v) := by
  rcases value_cases u with rfl | ⟨s, rfl⟩ | ⟨x, hx⟩
  · trivial
  · rcases value_cases v with rfl | ⟨t, rfl⟩ | ⟨y, hy⟩
    · trivial
    · cases s <;> cases t <;> trivial
    · rw [(add_infinity s hy).1]
      trivial
  · rcases value_cases v with rfl | ⟨t, rfl⟩ | ⟨y, hy⟩
    · rw [add_notANumber]
      trivial
    · rw [(add_infinity t hx).2]
      trivial
    · exact (rounds_add hu hv hx hy).canonical

/-- The value of a sum. -/
theorem valueOf_add (hf : 0 < f.exponentBias) (hu : Canonical f u) (hv : Canonical f v) :
    valueOf (overflowed f (UnpackedFloat.add f u v)) =
      (sum? (valueOf u) (valueOf v)).map (roundedValue f) := by
  rcases value_cases u with rfl | ⟨s, rfl⟩ | ⟨x, hx⟩
  · rfl
  · rcases value_cases v with rfl | ⟨t, rfl⟩ | ⟨y, hy⟩
    · cases s <;> rfl
    · cases s <;> cases t <;> simp [sum?, valueOf] <;> rfl
    · rw [(add_infinity s hy).1, hy]
      cases s <;> simp [sum?, valueOf, overflowed]
  · rcases value_cases v with rfl | ⟨t, rfl⟩ | ⟨y, hy⟩
    · rw [add_notANumber, hx]
      rfl
    · rw [(add_infinity t hx).2, hx]
      cases t <;> simp [sum?, valueOf, overflowed]
    · rw [(rounds_add hu hv hx hy).valueOf_overflowed hf, hx, hy]
      simp [sum?, ← EReal.coe_add]

theorem product?_infinity (s t : Sign) {x : ℝ} (hx : 0 < x) :
    product? (valueOf (.infinity s)) (some (signed t x : ℝ)) = valueOf (.infinity (s * t)) ∧
      product? (some (signed t x : ℝ)) (valueOf (.infinity s)) = valueOf (.infinity (t * s)) := by
  cases s <;> cases t <;>
    simp [product?, valueOf, signed, hx.ne', EReal.bot_mul_coe_of_pos hx,
      EReal.top_mul_coe_of_pos hx, EReal.coe_mul_bot_of_pos hx, EReal.coe_mul_top_of_pos hx]

theorem canonical_mul (hf : 0 < f.exponentBias) (hu : Canonical f u) (hv : Canonical f v) :
    Canonical f (UnpackedFloat.mul f u v) := by
  cases u with
  | finite s m e hm =>
    cases v with
    | finite t m' e' hm' => exact (rounds_mul hf hu hv rfl rfl).canonical
    | _ => trivial
  | _ => cases v <;> trivial

theorem map_roundedValue_infinity (f : Format) (s : Sign) :
    (valueOf (.infinity s)).map (roundedValue f) = valueOf (.infinity s) := by
  cases s <;> rfl

/-- The value of a product. -/
theorem valueOf_mul (hf : 0 < f.exponentBias) (hu : Canonical f u) (hv : Canonical f v) :
    valueOf (overflowed f (UnpackedFloat.mul f u v)) =
      (product? (valueOf u) (valueOf v)).map (roundedValue f) := by
  rcases value_cases u with rfl | ⟨s, rfl⟩ | ⟨x, hx⟩
  · rfl
  · rcases value_cases v with rfl | ⟨t, rfl⟩ | ⟨y, hy⟩
    · cases s <;> rfl
    · cases s <;> cases t <;> simp [product?, valueOf] <;> rfl
    · rcases cases_of_valueOf hy with ⟨t, rfl, rfl⟩ | ⟨t, m, e, hm, rfl, rfl⟩
      · cases s <;> simp [product?, valueOf] <;> rfl
      · rw [hy, (product?_infinity s t (by positivity)).1, map_roundedValue_infinity]
        rfl
  · rcases value_cases v with rfl | ⟨t, rfl⟩ | ⟨y, hy⟩
    · rw [hx]
      cases u <;> rfl
    · rcases cases_of_valueOf hx with ⟨s, rfl, rfl⟩ | ⟨s, m, e, hm, rfl, rfl⟩
      · cases t <;> simp [product?, valueOf] <;> rfl
      · rw [hx, (product?_infinity t s (by positivity)).2, map_roundedValue_infinity]
        rfl
    · rw [(rounds_mul hf hu hv hx hy).valueOf_overflowed hf, hx, hy]
      simp [product?, ← EReal.coe_mul]

theorem canonical_sqrt (hu : Canonical f u) : Canonical f (UnpackedFloat.sqrt f u) := by
  cases u with
  | finite s m e hm =>
    cases s with
    | negative => trivial
    | positive =>
      refine (rounds_sqrt (u := .finite .positive m e hm) rfl ?_).canonical
      rw [signed]
      positivity
  | infinity s => cases s <;> trivial
  | _ => trivial

/-- The value of a square root. -/
theorem valueOf_sqrt (hf : 0 < f.exponentBias) (u : UnpackedFloat) :
    valueOf (overflowed f (UnpackedFloat.sqrt f u)) =
      (root? (valueOf u)).map (roundedValue f) := by
  rcases value_cases u with rfl | ⟨s, rfl⟩ | ⟨x, hx⟩
  · rfl
  · cases s <;> simp [root?, valueOf] <;> rfl
  · rcases lt_or_ge x 0 with hneg | hpos
    · rcases cases_of_valueOf hx with ⟨s, rfl, rfl⟩ | ⟨s, m, e, hm, rfl, rfl⟩
      · exact absurd hneg (lt_irrefl 0)
      · cases s with
        | negative =>
          rw [hx, root?, if_pos (EReal.coe_neg'.2 hneg)]
          rfl
        | positive =>
          have hvalue : (0 : ℝ) < m * 2 ^ e := by positivity
          rw [signed] at hneg
          linarith
    · have hnot : ¬(x : EReal) < 0 := (EReal.coe_nonneg.2 hpos).not_gt
      rw [(rounds_sqrt hx hpos).valueOf_overflowed hf, hx, root?, if_neg hnot,
        if_neg (EReal.coe_ne_top x)]
      rfl

theorem InFormat.neg (hu : InFormat f u) : InFormat f u.neg := by
  cases u with
  | finite s m e hm => exact inFormat_finite_iff.2 (inFormat_finite_iff.1 hu)
  | _ => exact ⟨trivial, rfl⟩

theorem InFormat.abs (hu : InFormat f u) : InFormat f u.abs := by
  cases u with
  | finite s m e hm => exact inFormat_finite_iff.2 (inFormat_finite_iff.1 hu)
  | _ => exact ⟨trivial, rfl⟩

theorem signed_neg (s : Sign) (x : ℝ) : signed (-s) x = -signed s x := by
  cases s with
  | positive => rfl
  | negative => exact (neg_neg x).symm

theorem abs_signed (s : Sign) (x : ℝ) : |signed s x| = |x| := by
  cases s with
  | positive => rfl
  | negative => exact abs_neg x

theorem valueOf_neg (u : UnpackedFloat) : valueOf u.neg = (valueOf u).map (- ·) := by
  cases u with
  | notANumber => rfl
  | infinity s => cases s <;> simp [UnpackedFloat.neg, valueOf]
  | zero s => simp [UnpackedFloat.neg, valueOf]
  | finite s m e hm =>
    rw [UnpackedFloat.neg, valueOf, valueOf, signed_neg, EReal.coe_neg]
    rfl

theorem valueOf_abs (u : UnpackedFloat) : valueOf u.abs = (valueOf u).map fun x => max x (-x) := by
  cases u with
  | notANumber => rfl
  | infinity s => cases s <;> simp [UnpackedFloat.abs, valueOf]
  | zero s => simp [UnpackedFloat.abs, valueOf]
  | finite s m e hm =>
    have hvalue : (0 : ℝ) ≤ m * 2 ^ e := by positivity
    rw [UnpackedFloat.abs, valueOf, valueOf, Option.map_some, ← EReal.coe_neg,
      ← EReal.coe_strictMono.monotone.map_max, ← abs_eq_max_neg, abs_signed, abs_of_nonneg hvalue]
    rfl

/-- A difference is the sum with the number of the other sign. -/
theorem unpacked_sub_eq (f : Format) (u v : UnpackedFloat) :
    UnpackedFloat.sub f u v = UnpackedFloat.add f u v.neg := by
  cases u with
  | finite s m e hm =>
    cases v with
    | finite t m' e' hm' =>
      cases t with
      | positive => rfl
      | negative =>
        simp only [UnpackedFloat.sub, Sign.apply, sub_neg_eq_add]
        rfl
    | _ => rfl
  | _ => cases v <;> rfl

end Stationary
