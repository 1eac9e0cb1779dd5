import Mathlib

/-!
# Rounding

Numbers of a binary format are real numbers `± m · 2 ^ e` with few digits, and an operation rounds
the exact result to one of them, the nearest, and of two the one with an even mantissa. For
positive numbers this is `nearest` : the exponent follows from the magnitude, and the
mantissa is the nearest natural number (`nearestEven`). Rounding is monotone (`nearest_mono`)
and leaves numbers of the format alone (`nearest_of_isDyadic`).

The operations round digit by digit. What they keep of a number is its integer part and two bits
for the rest (`Represents`), which is enough to shift it further and to round it. So
`roundWithAccuracy` computes the nearest number (`rounds_roundWithAccuracy`), and its result is in
the form in which numbers of a format are compared (`Canonical`).
-/

namespace Stationary

open Float.Model (Format UnpackedFloat totalExponent)
open Float.Model.UnpackedFloat

/-! ## Nearest natural numbers -/

/-- The nearest natural number; of two, the even one. -/
noncomputable def nearestEven (x : ℝ) : ℕ :=
  if x - ⌊x⌋₊ < 1 / 2 then ⌊x⌋₊
  else if x - ⌊x⌋₊ = 1 / 2 then ⌊x⌋₊ + ⌊x⌋₊ % 2
  else ⌊x⌋₊ + 1

theorem floor_le_nearestEven (x : ℝ) : ⌊x⌋₊ ≤ nearestEven x := by
  unfold nearestEven
  split_ifs <;> omega

theorem nearestEven_le_floor_add_one (x : ℝ) : nearestEven x ≤ ⌊x⌋₊ + 1 := by
  unfold nearestEven
  split_ifs <;> omega

theorem nearestEven_natCast (n : ℕ) : nearestEven n = n := by
  simp [nearestEven]

theorem nearestEven_of_lt {x : ℝ} (h : x - ⌊x⌋₊ < 1 / 2) : nearestEven x = ⌊x⌋₊ :=
  if_pos h

theorem nearestEven_of_eq {x : ℝ} (h : x - ⌊x⌋₊ = 1 / 2) :
    nearestEven x = ⌊x⌋₊ + ⌊x⌋₊ % 2 := by
  rw [nearestEven, if_neg h.not_lt, if_pos h]

theorem nearestEven_of_gt {x : ℝ} (h : 1 / 2 < x - ⌊x⌋₊) : nearestEven x = ⌊x⌋₊ + 1 := by
  rw [nearestEven, if_neg h.not_gt, if_neg h.ne']

theorem nearestEven_mono {x y : ℝ} (h : x ≤ y) : nearestEven x ≤ nearestEven y := by
  rcases (Nat.floor_mono h).lt_or_eq with hlt | heq
  · exact (nearestEven_le_floor_add_one x).trans (hlt.trans_le (floor_le_nearestEven y))
  · -- within one unit only the place relative to the middle counts
    have hrest : x - ⌊x⌋₊ ≤ y - ⌊y⌋₊ := by
      rw [heq]
      linarith
    rcases lt_trichotomy (x - ⌊x⌋₊) (1 / 2) with hx | hx | hx
    · rw [nearestEven_of_lt hx, heq]
      exact floor_le_nearestEven y
    · rcases (hx ▸ hrest).lt_or_eq with hy | hy
      · rw [nearestEven_of_eq hx, nearestEven_of_gt hy, heq]
        omega
      · rw [nearestEven_of_eq hx, nearestEven_of_eq hy.symm, heq]
    · rw [nearestEven_of_gt hx, nearestEven_of_gt (hx.trans_le hrest), heq]

/-! ## Extended mantissas -/

/-- The mantissa is the integer part of `x`, and the two bits say where the rest is relative to one
half. -/
structure Represents (em : ExtendedMantissa) (x : ℝ) : Prop where
  nonneg : 0 ≤ x
  mantissa : em.mantissa = ⌊x⌋₊
  roundBit : em.roundBit = true ↔ 1 / 2 ≤ x - ⌊x⌋₊
  stickyBit : em.stickyBit = true ↔ x - ⌊x⌋₊ ≠ 0 ∧ x - ⌊x⌋₊ ≠ 1 / 2

namespace Represents

variable {em : ExtendedMantissa} {x : ℝ}

theorem natCast (m : ℕ) : Represents (ExtendedMantissa.ofMantissaAndAccuracy m .exact) m where
  nonneg := Nat.cast_nonneg m
  mantissa := (Nat.floor_natCast m).symm
  roundBit := by
    rw [Nat.floor_natCast, sub_self]
    norm_num [ExtendedMantissa.ofMantissaAndAccuracy]
  stickyBit := by
    rw [Nat.floor_natCast, sub_self]
    simp [ExtendedMantissa.ofMantissaAndAccuracy]

/-- The two bits decide how the mantissa is rounded. -/
theorem roundedMantissa (h : Represents em x) : em.roundedMantissa = nearestEven x := by
  obtain ⟨m, r, s⟩ := em
  have hm : m = ⌊x⌋₊ := h.mantissa
  have hr := h.roundBit
  have hs := h.stickyBit
  subst hm
  cases r with
  | false =>
    have hlow : x - ⌊x⌋₊ < 1 / 2 := by simpa using hr
    rw [nearestEven_of_lt hlow]
    cases s <;> rfl
  | true =>
    have hhigh : 1 / 2 ≤ x - ⌊x⌋₊ := hr.1 rfl
    cases s with
    | false =>
      have htie : x - ⌊x⌋₊ = 1 / 2 := by
        by_contra hne
        exact Bool.false_ne_true (hs.2 ⟨by linarith, hne⟩)
      rw [nearestEven_of_eq htie]
      rfl
    | true =>
      rw [nearestEven_of_gt (hhigh.lt_of_ne' (hs.1 rfl).2)]
      rfl

/-- Half of a number leaves out half of the rest, and half of the last digit. -/
theorem half_sub_floor (x : ℝ) :
    x / 2 - ⌊x / 2⌋₊ = ((⌊x⌋₊ % 2 : ℕ) + (x - ⌊x⌋₊)) / 2 := by
  have hfloor : ⌊x / 2⌋₊ = ⌊x⌋₊ / 2 := by
    exact_mod_cast Nat.floor_div_natCast x 2
  have hdiv : ((⌊x⌋₊ / 2 : ℕ) : ℝ) * 2 + (⌊x⌋₊ % 2 : ℕ) = ⌊x⌋₊ := by
    exact_mod_cast Nat.div_add_mod' ⌊x⌋₊ 2
  rw [hfloor]
  linarith

/-- Together the two bits say whether there is a rest. -/
theorem bits_iff (h : Represents em x) : (em.roundBit || em.stickyBit) = true ↔ x - ⌊x⌋₊ ≠ 0 := by
  rw [Bool.or_eq_true, h.roundBit, h.stickyBit]
  constructor
  · rintro (h | h)
    · linarith
    · exact h.1
  · intro hne
    by_cases htie : 1 / 2 ≤ x - ⌊x⌋₊
    · exact Or.inl htie
    · exact Or.inr ⟨hne, fun h => htie h.ge⟩

/-- The last digit of the mantissa becomes the first bit of the rest. -/
theorem shiftRightOne (h : Represents em x) : Represents em.shiftRightOne (x / 2) := by
  have hx := h.nonneg
  have hlow : 0 ≤ x - ⌊x⌋₊ := sub_nonneg.2 (Nat.floor_le hx)
  have hhigh : x - ⌊x⌋₊ < 1 := by linarith [Nat.lt_floor_add_one x]
  have hdigit : ⌊x⌋₊ % 2 = 0 ∨ ⌊x⌋₊ % 2 = 1 := Nat.mod_two_eq_zero_or_one _
  constructor
  · positivity
  · have hfloor : ⌊x / 2⌋₊ = ⌊x⌋₊ / 2 := by
      exact_mod_cast Nat.floor_div_natCast x 2
    rw [hfloor, ExtendedMantissa.shiftRightOne, h.mantissa]
  · rw [half_sub_floor]
    simp only [ExtendedMantissa.shiftRightOne, h.mantissa, bne_iff_ne, ne_eq]
    rcases hdigit with hd | hd
    · simp only [hd, not_true_eq_false, false_iff, not_le]
      push_cast
      linarith
    · simp only [hd, one_ne_zero, not_false_eq_true, true_iff]
      push_cast
      linarith
  · show (em.roundBit || em.stickyBit) = true ↔ _
    rw [half_sub_floor, h.bits_iff]
    rcases hdigit with hd | hd
    · simp only [hd, Nat.cast_zero, zero_add]
      constructor
      · intro hne
        exact ⟨fun h => hne (by linarith), fun h => by linarith⟩
      · rintro ⟨hne, -⟩ h
        exact hne (by rw [h, zero_div])
    · simp only [hd, Nat.cast_one]
      constructor
      · intro hne
        exact ⟨fun h => by linarith, fun h => hne (by linarith)⟩
      · rintro ⟨-, hne⟩ h
        exact hne (by rw [h, add_zero])

theorem shiftRight (h : Represents em x) (k : ℕ) : Represents (em >>> k) (x / 2 ^ k) := by
  show Represents (k.repeat ExtendedMantissa.shiftRightOne em) _
  induction k with
  | zero =>
    rw [pow_zero, div_one]
    exact h
  | succ k ih =>
    rw [pow_succ, ← div_div]
    exact ih.shiftRightOne

end Represents

/-! ## Nearest numbers of a format -/

section Nearest

variable {f : Format} {x y : ℝ}

/-- The least power of two that is too large for the format. -/
noncomputable def bound (f : Format) : ℝ :=
  2 ^ (f.exponentBias + 1)

/-- The least number of a format that has all its digits. -/
noncomputable def smallestNormal (f : Format) : ℝ :=
  2 ^ (f.minExponent + f.mantissaBitsWithoutImplicit)

theorem bound_pos (f : Format) : 0 < bound f := by
  unfold bound
  positivity

theorem smallestNormal_pos (f : Format) : 0 < smallestNormal f := by
  unfold smallestNormal
  positivity

/-- The exponent of the last digit that a format keeps of a positive number. -/
noncomputable def lastExponent (f : Format) (x : ℝ) : ℤ :=
  f.targetExponent (Int.log 2 x + 1)

/-- The nearest number of a format to one that is not negative, as if exponents had no upper
bound. -/
noncomputable def nearest (f : Format) (x : ℝ) : ℝ :=
  nearestEven (x / 2 ^ lastExponent f x) * 2 ^ lastExponent f x

/-- A number with as few digits as a format has, and none below its least exponent. -/
def IsDyadic (f : Format) (x : ℝ) : Prop :=
  ∃ (m : ℕ) (e : ℤ), m < 2 ^ f.mantissaBits ∧ f.minExponent ≤ e ∧ x = m * 2 ^ e

theorem minExponent_le_lastExponent (f : Format) (x : ℝ) : f.minExponent ≤ lastExponent f x :=
  le_max_right _ _

theorem lastExponent_mono (hx : 0 < x) (h : x ≤ y) : lastExponent f x ≤ lastExponent f y := by
  have hlog := Int.log_mono_right (b := 2) hx h
  unfold lastExponent Format.targetExponent
  omega

theorem two_zpow_log_le (hx : 0 < x) : (2 : ℝ) ^ Int.log 2 x ≤ x := by
  exact_mod_cast Int.zpow_log_le_self (b := 2) one_lt_two hx

theorem lt_two_zpow_log (x : ℝ) : x < (2 : ℝ) ^ (Int.log 2 x + 1) := by
  exact_mod_cast Int.lt_zpow_succ_log_self (b := 2) one_lt_two x

theorem le_log_iff (hx : 0 < x) (k : ℤ) : k ≤ Int.log 2 x ↔ (2 : ℝ) ^ k ≤ x := by
  exact_mod_cast (Int.zpow_le_iff_le_log (b := 2) one_lt_two hx).symm

theorem log_lt_iff (hx : 0 < x) (k : ℤ) : Int.log 2 x < k ↔ x < (2 : ℝ) ^ k := by
  exact_mod_cast (Int.lt_zpow_iff_log_lt (b := 2) one_lt_two hx).symm

/-- A power of two that is not below the unit is a multiple of it. -/
theorem two_zpow_eq_mul {t k : ℤ} (h : t ≤ k) :
    (2 : ℝ) ^ k = (2 ^ (k - t).toNat : ℕ) * (2 : ℝ) ^ t := by
  obtain ⟨n, rfl⟩ := Int.le.dest h
  rw [add_sub_cancel_left, Int.toNat_natCast, zpow_add₀ two_ne_zero, zpow_natCast]
  push_cast
  ring

/-- A multiple of the unit bounds the nearest number as it bounds the number. -/
theorem nearest_le_of_le_mul {n : ℕ} (h : x ≤ n * 2 ^ lastExponent f x) :
    nearest f x ≤ n * 2 ^ lastExponent f x := by
  have hunit : (0 : ℝ) < 2 ^ lastExponent f x := by positivity
  have hn : nearestEven (x / 2 ^ lastExponent f x) ≤ n := by
    rw [← nearestEven_natCast n]
    exact nearestEven_mono ((div_le_iff₀ hunit).2 h)
  unfold nearest
  gcongr

theorem le_nearest_of_mul_le {n : ℕ} (h : n * 2 ^ lastExponent f x ≤ x) :
    n * 2 ^ lastExponent f x ≤ nearest f x := by
  have hunit : (0 : ℝ) < 2 ^ lastExponent f x := by positivity
  have hn : n ≤ nearestEven (x / 2 ^ lastExponent f x) := by
    rw [← nearestEven_natCast n]
    exact nearestEven_mono ((le_div_iff₀ hunit).2 h)
  unfold nearest
  gcongr

theorem nearest_mono (hx : 0 < x) (h : x ≤ y) : nearest f x ≤ nearest f y := by
  have hy := hx.trans_le h
  rcases (lastExponent_mono (f := f) hx h).eq_or_lt with heq | hlt
  · have hunit : (0 : ℝ) < 2 ^ lastExponent f y := by positivity
    unfold nearest
    rw [heq]
    gcongr
    exact nearestEven_mono (by gcongr)
  · -- a power of two is between the numbers, and it is a multiple of both units
    have hmin := minExponent_le_lastExponent f x
    have hunit : lastExponent f y = Int.log 2 y + 1 - f.mantissaBits := by
      unfold lastExponent Format.targetExponent at hlt hmin ⊢
      omega
    have hdigits : 1 ≤ f.mantissaBits := by
      unfold Format.mantissaBits
      omega
    have hlog : Int.log 2 x < Int.log 2 y := by
      unfold lastExponent Format.targetExponent at hlt
      omega
    have hbelow := nearest_le_of_le_mul (f := f) (x := x)
      (((log_lt_iff hx _).1 hlog).le.trans_eq (two_zpow_eq_mul (t := lastExponent f x) (by omega)))
    have habove := le_nearest_of_mul_le (f := f) (x := y)
      ((two_zpow_eq_mul (t := lastExponent f y) (by omega)).symm.trans_le (two_zpow_log_le hy))
    rw [← two_zpow_eq_mul (by omega)] at hbelow habove
    exact hbelow.trans habove

theorem nearest_zero (f : Format) : nearest f 0 = 0 := by
  have hzero : nearestEven 0 = 0 := by exact_mod_cast nearestEven_natCast 0
  rw [nearest, zero_div, hzero, Nat.cast_zero, zero_mul]

theorem nearest_nonneg (f : Format) (x : ℝ) : 0 ≤ nearest f x := by
  unfold nearest
  positivity

/-- Numbers of a format are not rounded. -/
theorem nearest_of_isDyadic (h : IsDyadic f x) : nearest f x = x := by
  obtain ⟨m, e, hm, he, rfl⟩ := h
  rcases m.eq_zero_or_pos with rfl | hpos
  · rw [Nat.cast_zero, zero_mul, nearest_zero]
  · have hx : (0 : ℝ) < m * 2 ^ e := by positivity
    have hlog : Int.log 2 ((m : ℝ) * 2 ^ e) < f.mantissaBits + e := by
      rw [log_lt_iff hx, zpow_add₀ two_ne_zero, zpow_natCast]
      gcongr
      exact_mod_cast hm
    have hunit : lastExponent f (m * 2 ^ e) ≤ e := by
      unfold lastExponent Format.targetExponent
      omega
    have hmultiple : (m : ℝ) * 2 ^ e =
        (m * 2 ^ (e - lastExponent f (m * 2 ^ e)).toNat : ℕ) *
          2 ^ lastExponent f (m * 2 ^ e) := by
      rw [Nat.cast_mul, mul_assoc, ← two_zpow_eq_mul hunit]
    exact le_antisymm ((nearest_le_of_le_mul hmultiple.le).trans_eq hmultiple.symm)
      (hmultiple.trans_le (le_nearest_of_mul_le hmultiple.ge))

theorem pos_of_floor {m : ℕ} {e : ℤ} (hm : 0 < m) (h : ⌊x / 2 ^ e⌋₊ = m) : 0 < x := by
  have hunit : (0 : ℝ) < 2 ^ e := by positivity
  have hpos : 0 < x / 2 ^ e := Nat.pos_of_floor_pos (h ▸ hm)
  exact (div_pos_iff_of_pos_right hunit).1 hpos

/-- The integer part of a multiple tells how many digits a number has. -/
theorem lastExponent_of_floor {m : ℕ} {e : ℤ} (hm : 0 < m) (h : ⌊x / 2 ^ e⌋₊ = m) :
    lastExponent f x = f.targetExponent (totalExponent m e) := by
  have hunit : (0 : ℝ) < 2 ^ e := by positivity
  obtain ⟨hlow, hhigh⟩ := (Nat.floor_eq_iff' hm.ne').1 h
  have hx := pos_of_floor hm h
  have hlog : Int.log 2 x = m.log2 + e := by
    refine le_antisymm ?_ ?_
    · rw [← Int.lt_add_one_iff, log_lt_iff hx, add_right_comm, zpow_add₀ two_ne_zero]
      refine (div_lt_iff₀ hunit).1 (hhigh.trans_le ?_)
      have hdigits : m + 1 ≤ 2 ^ (m.log2 + 1) := Nat.lt_log2_self
      exact_mod_cast hdigits
    · rw [le_log_iff hx, zpow_add₀ two_ne_zero, zpow_natCast]
      refine (le_div_iff₀ hunit).1 (le_trans ?_ hlow)
      have hdigits : 2 ^ m.log2 ≤ m := Nat.log2_self_le hm.ne'
      exact_mod_cast hdigits
  rw [lastExponent, hlog, totalExponent, add_right_comm]

theorem nearestEven_le_pow (f : Format) (x : ℝ) :
    nearestEven (x / 2 ^ lastExponent f x) ≤ 2 ^ f.mantissaBits := by
  have hunit : (0 : ℝ) < 2 ^ lastExponent f x := by positivity
  have hbelow : x / 2 ^ lastExponent f x ≤ (2 ^ f.mantissaBits : ℕ) := by
    rw [div_le_iff₀ hunit]
    refine (lt_two_zpow_log x).le.trans ?_
    push_cast
    rw [← zpow_natCast, ← zpow_add₀ two_ne_zero]
    refine zpow_le_zpow_right₀ one_le_two ?_
    unfold lastExponent Format.targetExponent
    omega
  rw [← nearestEven_natCast (2 ^ f.mantissaBits)]
  exact nearestEven_mono hbelow

/-- Above the least exponent a mantissa has all its digits. -/
theorem pow_le_nearestEven (hx : 0 < x) (h : lastExponent f x ≠ f.minExponent) :
    2 ^ f.mantissaBitsWithoutImplicit ≤ nearestEven (x / 2 ^ lastExponent f x) := by
  have hunit : (0 : ℝ) < 2 ^ lastExponent f x := by positivity
  have habove : ((2 ^ f.mantissaBitsWithoutImplicit : ℕ) : ℝ) ≤ x / 2 ^ lastExponent f x := by
    rw [le_div_iff₀ hunit]
    refine le_trans ?_ (two_zpow_log_le hx)
    push_cast
    rw [← zpow_natCast, ← zpow_add₀ two_ne_zero]
    refine zpow_le_zpow_right₀ one_le_two ?_
    unfold lastExponent Format.targetExponent Format.mantissaBits at h ⊢
    omega
  rw [← nearestEven_natCast (2 ^ f.mantissaBitsWithoutImplicit)]
  exact nearestEven_mono habove

/-- The nearest number of a format to any number. -/
noncomputable def signedNearest (f : Format) (x : ℝ) : ℝ :=
  if 0 ≤ x then nearest f x else -nearest f (-x)

theorem signedNearest_mono (h : x ≤ y) : signedNearest f x ≤ signedNearest f y := by
  unfold signedNearest
  by_cases hx : 0 ≤ x
  · rw [if_pos hx, if_pos (hx.trans h)]
    rcases hx.eq_or_lt with rfl | hx
    · rw [nearest_zero]
      exact nearest_nonneg f y
    · exact nearest_mono hx h
  · rw [if_neg hx]
    split
    · have hlow := nearest_nonneg f (-x)
      have hhigh := nearest_nonneg f y
      linarith
    · rename_i hy
      exact neg_le_neg (nearest_mono (by linarith) (neg_le_neg h))

theorem signedNearest_of_isDyadic (h : IsDyadic f |x|) : signedNearest f x = x := by
  unfold signedNearest
  split
  · rename_i hpos
    rw [abs_of_nonneg hpos] at h
    exact nearest_of_isDyadic h
  · rename_i hneg
    rw [abs_of_neg (not_le.1 hneg)] at h
    rw [nearest_of_isDyadic h, neg_neg]

end Nearest

/-! ## Unpacked numbers -/

/-- A real number with a sign put before it. -/
def signed : Sign → ℝ → ℝ
  | .positive, x => x
  | .negative, x => -x

/-- The value of an unpacked number, if it is one. -/
noncomputable def valueOf : UnpackedFloat → Option EReal
  | .notANumber => none
  | .infinity .positive => some ⊤
  | .infinity .negative => some ⊥
  | .zero _ => some 0
  | .finite sign mantissa exponent _ => some ((signed sign (mantissa * 2 ^ exponent) : ℝ) : EReal)

theorem signedNearest_signed (f : Format) (s : Sign) {x : ℝ} (hx : 0 < x) :
    signedNearest f (signed s x) = signed s (nearest f x) := by
  cases s with
  | positive => exact if_pos hx.le
  | negative => rw [signedNearest, signed, signed, if_neg (by linarith), neg_neg]

/-- Mantissa and exponent are those of a number of the format with the exponent as low as it can
be. -/
structure IsCanonical (f : Format) (mantissa : ℕ) (exponent : ℤ) : Prop where
  lt_pow : mantissa < 2 ^ f.mantissaBits
  minExponent_le : f.minExponent ≤ exponent
  pow_le_or : 2 ^ f.mantissaBitsWithoutImplicit ≤ mantissa ∨ exponent = f.minExponent

/-- An unpacked number is infinite, not a number, zero, or in canonical form. -/
def Canonical (f : Format) : UnpackedFloat → Prop
  | .finite _ mantissa exponent _ => IsCanonical f mantissa exponent
  | _ => True

/-- The unpacked number is a real number rounded to the format, but for its magnitude. -/
structure Rounds (f : Format) (x : ℝ) (u : UnpackedFloat) : Prop where
  canonical : Canonical f u
  valueOf_eq : valueOf u = some ((signedNearest f x : ℝ) : EReal)

section Shifting

variable {f : Format}

theorem shiftToExponent_of_le (m : ℕ) {e t : ℤ} (acc : Accuracy) (h : e ≤ t) :
    shiftToExponent m e acc t =
      (ExtendedMantissa.ofMantissaAndAccuracy m acc >>> (t - e).toNat, t) := by
  unfold shiftToExponent
  simp only [Prod.mk.injEq, true_and]
  omega

/-- A rounded mantissa is shifted only if it has one digit too many, which is then a zero. -/
theorem shiftToTargetExponent_exact {m : ℕ} {e : ℤ} (hm : m ≤ 2 ^ f.mantissaBits)
    (he : f.minExponent ≤ e) :
    (m < 2 ^ f.mantissaBits ∧
      ((shiftToTargetExponent f m e .exact).1.mantissa,
        (shiftToTargetExponent f m e .exact).2) = (m, e)) ∨
    (m = 2 ^ f.mantissaBits ∧
      ((shiftToTargetExponent f m e .exact).1.mantissa,
        (shiftToTargetExponent f m e .exact).2) = (2 ^ f.mantissaBitsWithoutImplicit, e + 1)) := by
  rcases hm.lt_or_eq with hlt | rfl
  · refine Or.inl ⟨hlt, ?_⟩
    have hdigits : m.log2 + 1 ≤ f.mantissaBits := by
      rcases m.eq_zero_or_pos with rfl | hpos
      · simp [Format.mantissaBits]
      · exact (Nat.log2_lt hpos.ne').2 hlt
    have hstay : (f.targetExponent (totalExponent m e) - e).toNat = 0 := by
      unfold Format.targetExponent totalExponent
      omega
    unfold shiftToTargetExponent shiftToExponent
    simp only [hstay, Nat.cast_zero, add_zero]
    rfl
  · refine Or.inr ⟨rfl, ?_⟩
    have hone : (f.targetExponent (totalExponent (2 ^ f.mantissaBits) e) - e).toNat = 1 := by
      unfold Format.targetExponent totalExponent
      rw [Nat.log2_two_pow]
      omega
    have hhalf : 2 ^ f.mantissaBits / 2 = 2 ^ f.mantissaBitsWithoutImplicit := by
      rw [Format.mantissaBits, Nat.add_comm, pow_succ, Nat.mul_div_cancel _ two_pos]
    unfold shiftToTargetExponent shiftToExponent
    simp only [hone, Nat.cast_one]
    rw [← hhalf]
    rfl

end Shifting

/-- The first shift brings the last digit to its place, and rounding what is left gives the nearest
mantissa. -/
theorem exists_shifted {f : Format} {m : ℕ} {e : ℤ} {acc : Accuracy} {x : ℝ}
    (hm : 0 < m) (hrep : Represents (ExtendedMantissa.ofMantissaAndAccuracy m acc) (x / 2 ^ e))
    (he : e ≤ f.targetExponent (totalExponent m e)) :
    0 < x ∧ ∃ em : ExtendedMantissa,
      shiftToTargetExponent f m e acc = (em, lastExponent f x) ∧
      em.roundedMantissa = nearestEven (x / 2 ^ lastExponent f x) := by
  have hmantissa : (ExtendedMantissa.ofMantissaAndAccuracy m acc).mantissa = m := by
    unfold ExtendedMantissa.ofMantissaAndAccuracy
    split <;> rfl
  have hfloor : ⌊x / 2 ^ e⌋₊ = m := hrep.mantissa.symm.trans hmantissa
  rw [← lastExponent_of_floor hm hfloor] at he
  refine ⟨pos_of_floor hm hfloor,
    ExtendedMantissa.ofMantissaAndAccuracy m acc >>> (lastExponent f x - e).toNat, ?_, ?_⟩
  · unfold shiftToTargetExponent
    rw [← lastExponent_of_floor hm hfloor]
    exact shiftToExponent_of_le m acc he
  · have hscaled : x / 2 ^ e / 2 ^ (lastExponent f x - e).toNat = x / 2 ^ lastExponent f x := by
      rw [div_div, two_zpow_eq_mul he]
      push_cast
      ring
    rw [← hscaled]
    exact (hrep.shiftRight (lastExponent f x - e).toNat).roundedMantissa

/-- The rounded number of a sign, a mantissa and an exponent, and what they leave out. -/
theorem rounds_roundWithAccuracy {f : Format} {s : Sign} {m : ℕ} {e : ℤ} {acc : Accuracy} {x : ℝ}
    (hm : 0 < m) (hrep : Represents (ExtendedMantissa.ofMantissaAndAccuracy m acc) (x / 2 ^ e))
    (he : e ≤ f.targetExponent (totalExponent m e)) :
    Rounds f (signed s x) (roundWithAccuracy f s m e acc) := by
  obtain ⟨hx, em, hshift, hround⟩ := exists_shifted hm hrep he
  have hmin := minExponent_le_lastExponent f x
  have hnearest := signedNearest_signed f s hx
  unfold roundWithAccuracy
  simp only [hshift, hround]
  -- the second shift
  rcases shiftToTargetExponent_exact (nearestEven_le_pow f x) hmin with ⟨hlt, hpair⟩ | ⟨heq, hpair⟩
  · obtain ⟨hmant, hexp⟩ := Prod.mk.inj hpair
    split
    · rename_i hzero
      rw [hmant] at hzero
      refine ⟨trivial, ?_⟩
      rw [hnearest]
      unfold nearest
      rw [hzero]
      cases s <;> simp [valueOf, signed]
    · refine ⟨?_, ?_⟩
      · simp only [Canonical, hmant, hexp]
        refine ⟨hlt, hmin, ?_⟩
        by_cases hlast : lastExponent f x = f.minExponent
        · exact Or.inr hlast
        · exact Or.inl (pow_le_nearestEven hx hlast)
      · simp only [valueOf, hmant, hexp, hnearest]
        rfl
  · obtain ⟨hmant, hexp⟩ := Prod.mk.inj hpair
    have hvalue : ((2 ^ f.mantissaBitsWithoutImplicit : ℕ) : ℝ) * 2 ^ (lastExponent f x + 1) =
        nearest f x := by
      rw [nearest, heq, Format.mantissaBits, zpow_add_one₀ two_ne_zero]
      push_cast
      ring
    split
    · rename_i hzero
      rw [hmant] at hzero
      exact absurd hzero (by positivity)
    · refine ⟨?_, ?_⟩
      · simp only [Canonical, hmant, hexp]
        refine ⟨?_, by omega, Or.inl le_rfl⟩
        rw [Format.mantissaBits]
        exact Nat.pow_lt_pow_right one_lt_two (by omega)
      · simp only [valueOf, hmant, hexp, hvalue, hnearest]

end Stationary
