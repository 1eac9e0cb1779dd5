import Stationary.Proofs.Rounding

/-!
# Numbers of a format

The unpacked numbers of a format are those in canonical form whose exponent is not too great
(`InFormat`). Unpacking gives such a number (`inFormat_unpack`), and packing one in
canonical form only makes numbers infinite that are too large (`unpack_pack_of_canonical`). So a
number that is rounded, packed and unpacked has the value `rounded`, which is a monotone function
of the exact result (`rounded_mono`) and leaves the values of the format alone.

In canonical form exponent and mantissa compare as the values do
(`compare_of_canonical`).
-/

namespace Stationary

open Float.Model (Format UnpackedFloat totalExponent)
open Float.Model.UnpackedFloat

variable {f : Format} {u v : UnpackedFloat}

/-! ## Fields -/

theorem minExponent_eq (f : Format) :
    f.minExponent = 1 - (f.exponentBias : ℤ) - f.mantissaBitsWithoutImplicit := by
  have hpow : 1 ≤ 2 ^ (f.exponentBits - 1) := Nat.one_le_two_pow
  unfold Format.minExponent Format.exponentBias Format.mantissaBits
  rw [Nat.cast_sub hpow]
  push_cast
  ring

theorem two_pow_exponentBits (f : Format) : 2 ^ f.exponentBits = 2 * f.exponentBias + 2 := by
  have hpow : 1 ≤ 2 ^ (f.exponentBits - 1) := Nat.one_le_two_pow
  have hbits : f.exponentBits = f.exponentBits - 1 + 1 := by
    have := f.he
    omega
  conv_lhs => rw [hbits, pow_succ]
  unfold Format.exponentBias
  omega

theorem toNat_one_append {w : ℕ} (b : BitVec w) : (1#1 ++ b).toNat = 2 ^ w + b.toNat := by
  rw [BitVec.toNat_append, ← Nat.shiftLeft_add_eq_or_of_lt b.isLt]
  simp [Nat.shiftLeft_eq]

theorem ofBitVec_toBitVec (s : Sign) : Sign.ofBitVec s.toBitVec = s := by
  cases s <;> rfl

theorem unpackSign_packComponents (s : Sign) (e : BitVec f.exponentBits)
    (m : BitVec f.mantissaBitsWithoutImplicit) :
    unpackSign (packComponents f s e m) = s.toBitVec := by
  refine BitVec.eq_of_getLsbD_eq fun i hi => ?_
  obtain rfl : i = 0 := by omega
  simp [unpackSign, packComponents, BitVec.getLsbD_append, BitVec.getElem_append]

theorem zero_ne_neg_one (f : Format) : (0#f.exponentBits) ≠ -1#_ := by
  intro h
  have hnat := congrArg BitVec.toNat h
  simp only [BitVec.neg_one_eq_allOnes, BitVec.toNat_allOnes, BitVec.toNat_zero] at hnat
  have hpow := two_pow_exponentBits f
  omega

/-- Unpacking finds the fields that were packed. -/
theorem unpack_packComponents (s : Sign) (e : BitVec f.exponentBits)
    (m : BitVec f.mantissaBitsWithoutImplicit) : unpack f (packComponents f s e m) =
      if e = -1#_ then if m = 0#_ then .infinity s else .notANumber
      else if e = 0#_ then
        if h : m = 0#_ then .zero s
        else .finite s m.toNat f.minExponent
          (by simpa [BitVec.toNat_pos, BitVec.pos_iff_ne_zero] using h)
      else .finite s (1#1 ++ m).toNat
        ((e.toNat : ℤ) - (f.exponentBias + f.mantissaBitsWithoutImplicit)) (by simp) := by
  have hmin : (0 : ℤ) - (f.exponentBias + f.mantissaBitsWithoutImplicit) + 1 =
      f.minExponent := by
    rw [minExponent_eq]
    ring
  unfold UnpackedFloat.unpack
  simp only [unpackMantissa_packComponents, unpackExponent_packComponents,
    unpackSign_packComponents, ofBitVec_toBitVec]
  split
  · rfl
  · split
    · rename_i he
      subst he
      simp only [BitVec.toNat_zero, Nat.cast_zero, hmin]
    · rfl

theorem unpack_packedInfinity (f : Format) (s : Sign) :
    unpack f (packedInfinity f s) = .infinity s := by
  rw [packedInfinity, unpack_packComponents, if_pos rfl]
  exact if_pos rfl

/-! ## Numbers that fit -/

/-- The greatest exponent of a number of the format. -/
def greatestExponent (f : Format) : ℤ :=
  f.exponentBias - f.mantissaBitsWithoutImplicit

/-- A number that is too large is infinite. -/
def overflowed (f : Format) : UnpackedFloat → UnpackedFloat
  | .finite sign mantissa exponent h =>
    if greatestExponent f < exponent then .infinity sign else .finite sign mantissa exponent h
  | other => other

theorem overflowed_finite (s : Sign) {m : ℕ} (e : ℤ) (h : 0 < m) :
    overflowed f (.finite s m e h) =
      if greatestExponent f < e then .infinity s else .finite s m e h :=
  rfl

/-- An unpacked number of the format. -/
structure InFormat (f : Format) (u : UnpackedFloat) : Prop where
  canonical : Canonical f u
  fits : overflowed f u = u

theorem inFormat_finite_iff {s : Sign} {m : ℕ} {e : ℤ} {h : 0 < m} :
    InFormat f (.finite s m e h) ↔ IsCanonical f m e ∧ e ≤ greatestExponent f := by
  constructor
  · rintro ⟨hcanonical, hfits⟩
    refine ⟨hcanonical, ?_⟩
    by_contra hlt
    rw [overflowed_finite, if_pos (not_le.1 hlt)] at hfits
    cases hfits
  · rintro ⟨hcanonical, hle⟩
    exact ⟨hcanonical, if_neg hle.not_gt⟩

/-- What unpacking gives is a number of the format. -/
theorem inFormat_unpack (hf : 0 < f.exponentBias) (b : BitVec f.numBits) :
    InFormat f (unpack f b) := by
  have hpow := two_pow_exponentBits f
  have hmin := minExponent_eq f
  unfold UnpackedFloat.unpack
  simp only
  split
  · split <;> exact ⟨trivial, rfl⟩
  · rename_i hinfinite
    split
    · split
      · exact ⟨trivial, rfl⟩
      · rename_i hexponent _
        rw [hexponent, inFormat_finite_iff, BitVec.toNat_zero]
        refine ⟨⟨?_, by omega, Or.inr (by omega)⟩, by unfold greatestExponent; omega⟩
        refine (BitVec.isLt _).trans ?_
        rw [Format.mantissaBits]
        exact Nat.pow_lt_pow_right one_lt_two (by omega)
    · rename_i hexponent
      have hpos : 0 < (unpackExponent b).toNat := by
        refine Nat.pos_of_ne_zero fun h => hexponent ?_
        exact BitVec.eq_of_toNat_eq (by rw [h, BitVec.toNat_zero])
      have hlt : (unpackExponent b).toNat + 1 < 2 ^ f.exponentBits := by
        have hle := (unpackExponent b).isLt
        refine lt_of_le_of_ne hle fun h => hinfinite (BitVec.eq_of_toNat_eq ?_)
        rw [BitVec.neg_one_eq_allOnes, BitVec.toNat_allOnes]
        omega
      have hmantissa := (unpackMantissa b).isLt
      have hdouble : 2 ^ f.mantissaBits = 2 * 2 ^ f.mantissaBitsWithoutImplicit := by
        rw [Format.mantissaBits, pow_add, pow_one]
      rw [inFormat_finite_iff, toNat_one_append]
      exact ⟨⟨by omega, by omega, Or.inl (by omega)⟩, by unfold greatestExponent; omega⟩

theorem ofNat_ne_neg_one {w k : ℕ} (h : k + 1 < 2 ^ w) : BitVec.ofNat w k ≠ -1#_ := by
  intro heq
  have hnat := congrArg BitVec.toNat heq
  rw [BitVec.toNat_ofNat, Nat.mod_eq_of_lt (by omega), BitVec.neg_one_eq_allOnes,
    BitVec.toNat_allOnes] at hnat
  omega

theorem ofNat_ne_zero {w k : ℕ} (hk : k ≠ 0) (h : k < 2 ^ w) : BitVec.ofNat w k ≠ 0#_ := by
  intro heq
  have hnat := congrArg BitVec.toNat heq
  rw [BitVec.toNat_ofNat, Nat.mod_eq_of_lt h, BitVec.toNat_zero] at hnat
  exact hk hnat

/-- The first digit of a normal number is left out and put back. -/
theorem unpack_normal {s : Sign} {m k : ℕ} {e : ℤ} (hm : 0 < m)
    (hlow : 2 ^ f.mantissaBitsWithoutImplicit ≤ m) (hhigh : m < 2 ^ f.mantissaBits)
    (hk : 0 < k) (hk' : k + 1 < 2 ^ f.exponentBits)
    (he : (k : ℤ) = e + f.exponentBias + f.mantissaBitsWithoutImplicit) :
    unpack f (packComponents f s (BitVec.ofNat _ k) (BitVec.ofNat _ m)) = .finite s m e hm := by
  have hmantissa : (1#1 ++ BitVec.ofNat f.mantissaBitsWithoutImplicit m).toNat = m := by
    have hdouble : 2 ^ f.mantissaBits = 2 * 2 ^ f.mantissaBitsWithoutImplicit := by
      rw [Format.mantissaBits, pow_add, pow_one]
    rw [toNat_one_append, BitVec.toNat_ofNat, Nat.mod_eq_sub_mod hlow, Nat.mod_eq_of_lt (by omega)]
    omega
  have hmod : k % 2 ^ f.exponentBits = k := Nat.mod_eq_of_lt (by omega)
  rw [unpack_packComponents, if_neg (ofNat_ne_neg_one hk'),
    if_neg (ofNat_ne_zero hk.ne' (by omega))]
  simp only [hmantissa, BitVec.toNat_ofNat, hmod, UnpackedFloat.finite.injEq, true_and]
  omega

/-- Without all its digits a number has the least exponent, which is stored as zero. -/
theorem unpack_subnormal {s : Sign} {m : ℕ} (hm : 0 < m)
    (hhigh : m < 2 ^ f.mantissaBitsWithoutImplicit) :
    unpack f (packComponents f s 0#_ (BitVec.ofNat _ m)) = .finite s m f.minExponent hm := by
  have hmantissa : (BitVec.ofNat f.mantissaBitsWithoutImplicit m).toNat = m := by
    rw [BitVec.toNat_ofNat, Nat.mod_eq_of_lt hhigh]
  rw [unpack_packComponents, if_neg (zero_ne_neg_one f), if_pos rfl,
    dif_neg (ofNat_ne_zero hm.ne' hhigh)]
  simp only [hmantissa]

/-- Packing a number in canonical form loses nothing but numbers that are too large. -/
theorem unpack_pack_of_canonical (h : Canonical f u) :
    unpack f (UnpackedFloat.pack f u) = overflowed f u := by
  cases u with
  | notANumber => exact unpack_packedNaN
  | infinity s => exact unpack_packedInfinity f s
  | zero s => exact unpack_packedZero
  | finite s m e hm =>
    obtain ⟨hlt, hmin, hor⟩ := h
    have hpow := two_pow_exponentBits f
    have hmineq := minExponent_eq f
    rw [overflowed_finite]
    unfold UnpackedFloat.pack greatestExponent
    simp only
    have hstored : ((e + f.exponentBias + f.mantissaBitsWithoutImplicit).toNat : ℤ) =
        e + f.exponentBias + f.mantissaBitsWithoutImplicit := Int.toNat_of_nonneg (by omega)
    generalize (e + f.exponentBias + f.mantissaBitsWithoutImplicit).toNat = k at hstored ⊢
    by_cases hgreat : (f.exponentBias : ℤ) - f.mantissaBitsWithoutImplicit < e
    · rw [if_pos (by omega), if_pos hgreat, unpack_packedInfinity]
    · rw [if_neg (by omega), if_neg hgreat]
      by_cases hnormal : 2 ^ f.mantissaBitsWithoutImplicit ≤ m
      · have hlog : m.log2 + 1 = f.mantissaBits := by
          have hlow := (Nat.le_log2 hm.ne').2 hnormal
          have hhigh := (Nat.log2_lt hm.ne').2 hlt
          unfold Format.mantissaBits at hhigh ⊢
          omega
        rw [if_pos hlog]
        exact unpack_normal hm hnormal hlt (by omega) (by omega) hstored
      · have hlog : m.log2 + 1 ≠ f.mantissaBits := by
          have hhigh := (Nat.log2_lt hm.ne').2 (not_le.1 hnormal)
          unfold Format.mantissaBits
          omega
        obtain rfl : e = f.minExponent := hor.resolve_left hnormal
        rw [if_neg hlog]
        exact unpack_subnormal hm (not_le.1 hnormal)

/-! ## Values -/

/-- The value of a real number, infinite if it is too large. -/
noncomputable def overflow (f : Format) (x : ℝ) : EReal :=
  if bound f ≤ x then ⊤ else if x ≤ -bound f then ⊥ else x

/-- The nearest value of the format. -/
noncomputable def rounded (f : Format) (x : ℝ) : EReal :=
  overflow f (signedNearest f x)

theorem overflow_mono {x y : ℝ} (h : x ≤ y) : overflow f x ≤ overflow f y := by
  unfold overflow
  by_cases hy : bound f ≤ y
  · rw [if_pos hy]
    exact le_top
  · by_cases hx : x ≤ -bound f
    · have hpos := bound_pos f
      rw [if_neg (by linarith : ¬bound f ≤ x), if_pos hx]
      exact bot_le
    · rw [if_neg hy, if_neg (by linarith : ¬y ≤ -bound f), if_neg (by linarith : ¬bound f ≤ x),
        if_neg hx]
      exact EReal.coe_le_coe_iff.2 h

theorem overflow_of_abs_lt {x : ℝ} (h : |x| < bound f) : overflow f x = x := by
  obtain ⟨hlow, hhigh⟩ := abs_lt.1 h
  rw [overflow, if_neg hhigh.not_ge, if_neg hlow.not_ge]

theorem rounded_mono {x y : ℝ} (h : x ≤ y) : rounded f x ≤ rounded f y :=
  overflow_mono (signedNearest_mono h)

theorem rounded_of_isDyadic {x : ℝ} (h : IsDyadic f |x|) (hx : |x| < bound f) :
    rounded f x = x := by
  rw [rounded, signedNearest_of_isDyadic h, overflow_of_abs_lt hx]

theorem rounded_zero (f : Format) : rounded f 0 = 0 := by
  refine (rounded_of_isDyadic ?_ ?_).trans EReal.coe_zero
  · exact ⟨0, f.minExponent, by positivity, le_rfl, by simp⟩
  · rw [abs_zero]
    exact bound_pos f

section Bounds

variable {m : ℕ} {e : ℤ}

/-- A number is too large exactly if its exponent is. -/
theorem bound_le_iff (hf : 0 < f.exponentBias) (h : IsCanonical f m e) :
    bound f ≤ (m : ℝ) * 2 ^ e ↔ greatestExponent f < e := by
  have hmin := minExponent_eq f
  unfold bound greatestExponent
  constructor
  · intro hle
    by_contra hge
    refine hle.not_gt ?_
    have hm : (m : ℝ) < 2 ^ f.mantissaBits := by exact_mod_cast h.lt_pow
    calc (m : ℝ) * 2 ^ e < 2 ^ f.mantissaBits * 2 ^ e := by gcongr
      _ = 2 ^ ((f.mantissaBits : ℤ) + e) := by rw [zpow_add₀ two_ne_zero, zpow_natCast]
      _ ≤ 2 ^ ((f.exponentBias + 1 : ℕ) : ℤ) := by
        refine zpow_le_zpow_right₀ one_le_two ?_
        unfold Format.mantissaBits
        push_cast
        omega
      _ = 2 ^ (f.exponentBias + 1) := zpow_natCast _ _
  · intro hlt
    have hm : (2 : ℝ) ^ f.mantissaBitsWithoutImplicit ≤ m := by
      exact_mod_cast h.pow_le_or.resolve_right (by omega)
    calc (2 : ℝ) ^ (f.exponentBias + 1)
        = 2 ^ ((f.exponentBias + 1 : ℕ) : ℤ) := (zpow_natCast _ _).symm
      _ ≤ 2 ^ ((f.mantissaBitsWithoutImplicit : ℤ) + e) := by
        refine zpow_le_zpow_right₀ one_le_two ?_
        push_cast
        omega
      _ = 2 ^ f.mantissaBitsWithoutImplicit * 2 ^ e := by
        rw [zpow_add₀ two_ne_zero, zpow_natCast]
      _ ≤ m * 2 ^ e := by gcongr

/-- A lower exponent means a lower value. -/
theorem mul_zpow_lt {m' : ℕ} {e' : ℤ} (h : IsCanonical f m e) (h' : IsCanonical f m' e')
    (he : e < e') : (m : ℝ) * 2 ^ e < m' * 2 ^ e' := by
  have hm : (m : ℝ) < 2 ^ f.mantissaBits := by exact_mod_cast h.lt_pow
  have hm' : (2 : ℝ) ^ f.mantissaBitsWithoutImplicit ≤ m' := by
    exact_mod_cast h'.pow_le_or.resolve_right (h.minExponent_le.trans_lt he).ne'
  calc (m : ℝ) * 2 ^ e < 2 ^ f.mantissaBits * 2 ^ e := by gcongr
    _ = 2 ^ f.mantissaBitsWithoutImplicit * 2 ^ (e + 1) := by
      rw [Format.mantissaBits, zpow_add_one₀ two_ne_zero]
      ring
    _ ≤ m' * 2 ^ e' := by
      gcongr
      · exact one_le_two
      · exact he

end Bounds

/-- A number with a real value is a zero or finite. -/
theorem cases_of_valueOf {x : ℝ} (h : valueOf u = some (x : EReal)) :
    (∃ s, u = .zero s ∧ x = 0) ∨ ∃ s m e hm, u = .finite s m e hm ∧ x = signed s (m * 2 ^ e) := by
  cases u with
  | notANumber => cases h
  | infinity s =>
    cases s with
    | positive => exact absurd (Option.some.inj h).symm (EReal.coe_ne_top x)
    | negative => exact absurd (Option.some.inj h).symm (EReal.coe_ne_bot x)
  | zero s => exact Or.inl ⟨s, rfl, EReal.coe_eq_zero.1 (Option.some.inj h).symm⟩
  | finite s m e hm =>
    exact Or.inr ⟨s, m, e, hm, rfl, (EReal.coe_eq_coe_iff.1 (Option.some.inj h)).symm⟩

/-- The value of a number that is packed and unpacked. -/
theorem valueOf_overflowed (hf : 0 < f.exponentBias) (hu : Canonical f u) {x : ℝ}
    (h : valueOf u = some (x : EReal)) : valueOf (overflowed f u) = some (overflow f x) := by
  rcases cases_of_valueOf h with ⟨s, rfl, rfl⟩ | ⟨s, m, e, hm, rfl, rfl⟩
  · rw [overflow_of_abs_lt (by rw [abs_zero]; exact bound_pos f)]
    exact h
  · have hiff := bound_le_iff hf hu
    have hpos : (0 : ℝ) < m * 2 ^ e := by positivity
    have hbound := bound_pos f
    rw [overflowed_finite]
    split
    · rename_i hlarge
      have hle := hiff.2 hlarge
      cases s with
      | positive => rw [signed, overflow, if_pos hle, valueOf]
      | negative => rw [signed, overflow, if_neg (by linarith), if_pos (by linarith), valueOf]
    · rename_i hsmall
      have hlt : (m : ℝ) * 2 ^ e < bound f := not_le.1 fun hle => hsmall (hiff.1 hle)
      rw [overflow_of_abs_lt, h]
      cases s with
      | positive => rwa [signed, abs_of_pos hpos]
      | negative => rwa [signed, abs_neg, abs_of_pos hpos]

theorem Rounds.valueOf_overflowed (hf : 0 < f.exponentBias) {x : ℝ} (h : Rounds f x u) :
    valueOf (overflowed f u) = some (rounded f x) :=
  Stationary.valueOf_overflowed hf h.canonical h.valueOf_eq

/-- The value of a number of the format is its own rounded value. -/
theorem rounded_of_inFormat (hf : 0 < f.exponentBias) (hu : InFormat f u) {x : ℝ}
    (h : valueOf u = some (x : EReal)) : rounded f x = x := by
  have hvalue := valueOf_overflowed hf hu.canonical h
  rw [hu.fits, h, Option.some.injEq] at hvalue
  rcases cases_of_valueOf h with ⟨s, rfl, rfl⟩ | ⟨s, m, e, hm, rfl, rfl⟩
  · exact rounded_zero f
  · rw [rounded, signedNearest_signed f s (by positivity),
      nearest_of_isDyadic ⟨m, e, hu.canonical.lt_pow, hu.canonical.minExponent_le, rfl⟩, ← hvalue]

/-! ## Order -/

theorem cmp_neg (x y : ℝ) : cmp (-x) (-y) = cmp y x := by
  simp only [cmp, cmpUsing, neg_lt_neg_iff]

theorem cmp_coe (x y : ℝ) : cmp (x : EReal) y = cmp x y := by
  simp only [cmp, cmpUsing, EReal.coe_lt_coe_iff]

/-- Exponents count before mantissas. -/
theorem compare_then {m m' : ℕ} {e e' : ℤ} (h : IsCanonical f m e) (h' : IsCanonical f m' e') :
    (compare e e').then (compare m m') = cmp ((m : ℝ) * 2 ^ e) (m' * 2 ^ e') := by
  rcases lt_trichotomy e e' with he | rfl | he
  · rw [compare_lt_iff_lt.2 he, (mul_zpow_lt h h' he).cmp_eq_lt]
    rfl
  · rw [compare_eq_iff_eq.2 rfl, cmp_mul_pos_right (by positivity)]
    show compare m m' = _
    rw [← cmp_eq_compare]
    simp only [cmp, cmpUsing, Nat.cast_lt]
  · rw [compare_gt_iff_gt.2 he, (mul_zpow_lt h' h he).cmp_eq_gt]
    rfl

/-- Finite numbers compare by their signs, and for equal signs by their magnitudes. -/
theorem compare_finite {s t : Sign} {m m' : ℕ} {e e' : ℤ} {hm : 0 < m} {hm' : 0 < m'}
    (h : IsCanonical f m e) (h' : IsCanonical f m' e') :
    (UnpackedFloat.finite s m e hm).compare (.finite t m' e' hm') =
      some (cmp ((signed s (m * 2 ^ e) : ℝ) : EReal) (signed t (m' * 2 ^ e') : ℝ)) := by
  have hpos : (0 : ℝ) < m * 2 ^ e := by positivity
  have hpos' : (0 : ℝ) < m' * 2 ^ e' := by positivity
  rw [cmp_coe]
  cases s <;> cases t
  · rw [signed, signed, cmp_neg, ← compare_then h' h, ← Int.compare_swap e e',
      ← Nat.compare_swap m m', ← Ordering.swap_then]
    rfl
  · exact congrArg some ((neg_neg_of_pos hpos).trans hpos').cmp_eq_lt.symm
  · exact congrArg some ((neg_neg_of_pos hpos').trans hpos).cmp_eq_gt.symm
  · exact congrArg some (compare_then h h')

/-- Numbers in canonical form compare as their values do. -/
theorem compare_of_canonical (hu : Canonical f u) (hv : Canonical f v) : u.compare v =
    (valueOf u).bind fun x => (valueOf v).map fun y => cmp x y := by
  have hnat {m : ℕ} (hm : 0 < m) (e : ℤ) : (0 : ℝ) < m * 2 ^ e := by positivity
  cases u with
  | notANumber => rfl
  | infinity s =>
    cases v with
    | notANumber => cases s <;> rfl
    | infinity t =>
      cases s <;> cases t
      · exact congrArg some (cmp_self_eq_eq (⊥ : EReal)).symm
      · exact congrArg some bot_lt_top.cmp_eq_lt.symm
      · exact congrArg some bot_lt_top.cmp_eq_gt.symm
      · exact congrArg some (cmp_self_eq_eq (⊤ : EReal)).symm
    | zero t =>
      cases s
      · exact congrArg some (EReal.bot_lt_coe 0).cmp_eq_lt.symm
      · exact congrArg some (EReal.coe_lt_top 0).cmp_eq_gt.symm
    | finite t m e hm =>
      cases s
      · exact congrArg some (EReal.bot_lt_coe _).cmp_eq_lt.symm
      · exact congrArg some (EReal.coe_lt_top _).cmp_eq_gt.symm
  | zero s =>
    cases v with
    | notANumber => rfl
    | infinity t =>
      cases t
      · exact congrArg some (EReal.bot_lt_coe 0).cmp_eq_gt.symm
      · exact congrArg some (EReal.coe_lt_top 0).cmp_eq_lt.symm
    | zero t => exact congrArg some (cmp_self_eq_eq (0 : EReal)).symm
    | finite t m e hm =>
      cases t
      · exact congrArg some
          (LT.lt.cmp_eq_gt (EReal.coe_neg'.2 (neg_neg_of_pos (hnat hm e)))).symm
      · exact congrArg some (LT.lt.cmp_eq_lt (EReal.coe_pos.2 (hnat hm e))).symm
  | finite s m e hm =>
    cases v with
    | notANumber => cases s <;> rfl
    | infinity t =>
      cases t
      · exact (by cases s <;> rfl : _ = some Ordering.gt).trans
          (congrArg some (EReal.bot_lt_coe _).cmp_eq_gt.symm)
      · exact (by cases s <;> rfl : _ = some Ordering.lt).trans
          (congrArg some (EReal.coe_lt_top _).cmp_eq_lt.symm)
    | zero t =>
      cases s
      · exact congrArg some
          (LT.lt.cmp_eq_lt (EReal.coe_neg'.2 (neg_neg_of_pos (hnat hm e)))).symm
      · exact congrArg some (LT.lt.cmp_eq_gt (EReal.coe_pos.2 (hnat hm e))).symm
    | finite t m' e' hm' => exact compare_finite hu hv

/-- One number of the format is strictly below another exactly if both have values and these are
so. -/
theorem lt_iff_of_canonical (hu : Canonical f u) (hv : Canonical f v) : u.lt v = true ↔
    ∃ x y, valueOf u = some x ∧ valueOf v = some y ∧ x < y := by
  unfold UnpackedFloat.lt
  rw [compare_of_canonical hu hv]
  cases valueOf u with
  | none => simp
  | some x =>
    cases valueOf v with
    | none => simp
    | some y => simp

theorem le_iff_of_canonical (hu : Canonical f u) (hv : Canonical f v) : u.le v = true ↔
    ∃ x y, valueOf u = some x ∧ valueOf v = some y ∧ x ≤ y := by
  unfold UnpackedFloat.le
  rw [compare_of_canonical hu hv]
  cases valueOf u with
  | none => simp
  | some x =>
    cases valueOf v with
    | none => simp
    | some y => simp [Ordering.isLE_iff_ne_gt]

/-- Two numbers of the format are equal exactly if they have one value. -/
theorem beq_iff_of_canonical (hu : Canonical f u) (hv : Canonical f v) : u.beq v = true ↔
    ∃ x, valueOf u = some x ∧ valueOf v = some x := by
  unfold UnpackedFloat.beq
  rw [compare_of_canonical hu hv]
  cases valueOf u with
  | none => simp
  | some x =>
    cases valueOf v with
    | none => simp
    | some y => simp [@eq_comm _ y]

end Stationary
