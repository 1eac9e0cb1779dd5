import Stationary.Proofs.Flushing

/-!
# Sums and maxima with infinities

A sum of two finite numbers is finite or infinite, but never undefined, and packing leaves it
so (`Flushed.isFinite_or_isInfinity_add`). A finite number does not change an infinite one
(`Flushed.IsInfinity.add`). So the only way for a sum to leave the finite numbers is to be too
large, and once it has left them no finite number brings it back.

The maximum of two numbers is chosen by comparison, which `MaximumLaws` says of a binary format.
A maximum with zero is finite, unless it is taken of positive infinity or of what is not a
number.
-/

namespace Stationary

open BinaryFormat
open Float.Model (Format UnpackedFloat)

/-! ## Unpacked numbers -/

namespace UnpackedNumber

variable {u v : UnpackedFloat}

/-- A number is finite, or infinite with one of the signs, or not a number. -/
theorem isFinite_or_infinity (h : u ≠ .notANumber) :
    u.isFinite = true ∨ ∃ sign, u = .infinity sign := by
  cases u with
  | notANumber => exact absurd rfl h
  | infinity sign => exact Or.inr ⟨sign, rfl⟩
  | zero sign => exact Or.inl rfl
  | finite sign mantissa exponent hpos => exact Or.inl rfl

theorem round_ne_notANumber (format : Format) (sign : UnpackedFloat.Sign) (m : ℕ) (e : ℤ) :
    UnpackedFloat.round format sign m e ≠ .notANumber := by
  unfold UnpackedFloat.round UnpackedFloat.roundWithAccuracy
  dsimp only
  split
  · exact UnpackedFloat.noConfusion
  · exact UnpackedFloat.noConfusion

theorem normalize_ne_notANumber (format : Format) (m e : ℤ) (sign : UnpackedFloat.Sign) :
    UnpackedFloat.normalize format m e sign ≠ .notANumber := by
  unfold UnpackedFloat.normalize
  split
  · exact round_ne_notANumber _ _ _ _
  · exact UnpackedFloat.noConfusion
  · exact round_ne_notANumber _ _ _ _

/-- A sum of finite numbers is a number. -/
theorem add_ne_notANumber (format : Format) (hu : u.isFinite = true) (hv : v.isFinite = true) :
    UnpackedFloat.add format u v ≠ .notANumber := by
  cases u with
  | notANumber => cases hu
  | infinity sign => cases hu
  | zero s =>
    cases v with
    | notANumber => cases hv
    | infinity sign => cases hv
    | zero t => cases s <;> cases t <;> exact UnpackedFloat.noConfusion
    | finite t m e hpos => exact UnpackedFloat.noConfusion
  | finite s m e hpos =>
    cases v with
    | notANumber => cases hv
    | infinity sign => cases hv
    | zero t => exact UnpackedFloat.noConfusion
    | finite t m' e' hpos' => exact normalize_ne_notANumber _ _ _ _

/-- A finite number does not change an infinite one. -/
theorem add_infinity_left (format : Format) (sign : UnpackedFloat.Sign)
    (hv : v.isFinite = true) : UnpackedFloat.add format (.infinity sign) v = .infinity sign := by
  cases v with
  | notANumber => cases hv
  | infinity sign => cases hv
  | zero t => rfl
  | finite t m e hpos => rfl

/-! ## Packing -/

/-- Packed components are those of a finite number unless the exponent is the greatest. -/
theorem isFinite_unpack_packComponents {format : Format} (sign : UnpackedFloat.Sign)
    {exponent : BitVec format.exponentBits} (h : exponent ≠ BitVec.allOnes _)
    (mantissa : BitVec format.mantissaBitsWithoutImplicit) :
    (UnpackedFloat.unpack format
      (UnpackedFloat.packComponents format sign exponent mantissa)).isFinite = true := by
  rw [← BitVec.neg_one_eq_allOnes] at h
  unfold UnpackedFloat.unpack
  simp only [UnpackedFloat.unpackExponent_packComponents, if_neg h]
  split
  · split <;> rfl
  · rfl

/-- A packed finite number is finite or, if it is too large, infinite. -/
theorem unpack_pack_finite (format : Format) (sign : UnpackedFloat.Sign) (m : ℕ) (e : ℤ)
    (hpos : 0 < m) :
    (UnpackedFloat.unpack format
      (UnpackedFloat.pack format (.finite sign m e hpos))).isFinite = true ∨
    UnpackedFloat.unpack format (UnpackedFloat.pack format (.finite sign m e hpos)) =
      .infinity sign := by
  have hbits : 2 ≤ 2 ^ format.exponentBits :=
    Nat.le_self_pow (Nat.pos_iff_ne_zero.1 format.he) 2
  unfold UnpackedFloat.pack
  dsimp only
  split
  · refine Or.inr ?_
    simp [UnpackedFloat.unpack, UnpackedFloat.packedInfinity]
  · rename_i hlarge
    refine Or.inl ?_
    split
    · refine isFinite_unpack_packComponents sign (fun h => ?_) _
      have hnat := congrArg BitVec.toNat h
      rw [BitVec.toNat_allOnes, BitVec.toNat_ofNat, Nat.mod_eq_of_lt (by omega)] at hnat
      omega
    · refine isFinite_unpack_packComponents sign (fun h => ?_) _
      have hnat := congrArg BitVec.toNat h
      rw [BitVec.toNat_allOnes, BitVec.toNat_ofNat, Nat.zero_mod] at hnat
      omega

/-- Packing does not make a number undefined. -/
theorem unpack_pack_ne_notANumber (α : Type) [Scalar α] [BinaryFormat α]
    (h : u ≠ .notANumber) : unpack (pack u : α) ≠ .notANumber := by
  cases u with
  | notANumber => exact absurd rfl h
  | infinity sign =>
    rw [unpack_pack_infinity]
    exact UnpackedFloat.noConfusion
  | zero sign =>
    rw [unpack_pack_zero]
    exact UnpackedFloat.noConfusion
  | finite sign m e hpos =>
    rw [unpack_pack]
    intro hnan
    rcases unpack_pack_finite (format α) sign m e hpos with hfin | hinf
    · rw [hnan] at hfin
      cases hfin
    · rw [hnan] at hinf
      cases hinf

end UnpackedNumber

/-! ## Maxima -/

/-- The maximum of two numbers of a binary format. What is not a number is the answer, and two
zeros are added. -/
class MaximumLaws (α : Type) [Scalar α] [BinaryFormat α] : Prop where
  max_eq (x y : α) : Scalar.max x y =
    if (unpack x).isNaN then x
    else if (unpack y).isNaN then y
    else if Scalar.lt x y then y
    else if (unpack x).beq (unpack (0 : α)) && (unpack y).beq (unpack (0 : α)) then x + y
    else x

instance : MaximumLaws Float where
  max_eq x y := by
    have hlt : (Scalar.lt x y = true) = (x < y) := decide_eq_true_eq
    simp only [hlt]
    rfl

instance : MaximumLaws Float32 where
  max_eq x y := by
    have hlt : (Scalar.lt x y = true) = (x < y) := decide_eq_true_eq
    simp only [hlt]
    rfl

section Maxima

variable {α : Type} [Scalar α] [BinaryFormat α] [MaximumLaws α] {x : α}

/-- The maximum with zero, read off the number. -/
theorem max_zero_eq (x : α) : Scalar.max x 0 =
    match unpack x with
    | .zero _ => x + 0
    | .infinity .negative => 0
    | .finite .negative _ _ _ => 0
    | _ => x := by
  rw [MaximumLaws.max_eq, lt_eq_unpack, unpack_zero]
  cases unpack x with
  | notANumber => rfl
  | infinity sign => cases sign <;> rfl
  | zero sign => cases sign <;> rfl
  | finite sign m e hpos => cases sign <;> rfl

omit [MaximumLaws α] in
/-- Two zeros add up to one. -/
theorem exists_zero_add_zero {sign : UnpackedFloat.Sign} (h : unpack x = .zero sign) :
    ∃ t, unpack (x + 0) = .zero t := by
  rw [add_eq_pack, h, unpack_zero]
  exact ((IsZero.add (u := .zero sign) (v := .zero .positive) _ trivial
    trivial).unpack_pack α).exists_sign

theorem isFinite_max_zero (h : Scalar.isFinite x = true) :
    Scalar.isFinite (Scalar.max x 0) = true := by
  have hzero : Scalar.isFinite (0 : α) = true := by
    rw [isFinite_eq_unpack, unpack_zero]
    rfl
  rw [max_zero_eq]
  split
  · rename_i sign hx
    obtain ⟨t, ht⟩ := exists_zero_add_zero hx
    rw [isFinite_eq_unpack, ht]
    rfl
  · exact hzero
  · exact hzero
  · exact h

end Maxima

/-! ## Arithmetic without subnormal numbers -/

namespace Flushed

variable {α : Type} [Scalar α] [Subnormal α] [BinaryFormat α] {x y : Flushed α}
  {sign : UnpackedFloat.Sign}

/-- The number is infinite, with a sign. -/
def IsInfinity (sign : UnpackedFloat.Sign) (x : Flushed α) : Prop :=
  unpack x.value = .infinity sign

theorem IsInfinity.isFinite_eq_false (h : IsInfinity sign x) : Scalar.isFinite x = false := by
  show Scalar.isFinite x.value = false
  rw [isFinite_eq_unpack, h]
  rfl

theorem IsInfinity.of_flush {z : α} (h : unpack z = .infinity sign) :
    IsInfinity sign (⟨flush z⟩ : Flushed α) := by
  have hz : Scalar.isFinite z = false := by
    rw [isFinite_eq_unpack, h]
    rfl
  show unpack (flush z) = .infinity sign
  rw [flush_of_not_finite hz, h]

/-- The sum of two finite numbers is finite, or it is too large and infinite. -/
theorem isFinite_or_isInfinity_add (hx : Scalar.isFinite x = true)
    (hy : Scalar.isFinite y = true) :
    Scalar.isFinite (x + y) = true ∨ ∃ sign, IsInfinity sign (x + y) := by
  have hx' : (unpack (flush x.value)).isFinite = true := by
    rw [← isFinite_eq_unpack, isFinite_flush]
    exact hx
  have hy' : (unpack (flush y.value)).isFinite = true := by
    rw [← isFinite_eq_unpack, isFinite_flush]
    exact hy
  have hsum : unpack (flush x.value + flush y.value) ≠ .notANumber := by
    rw [add_eq_pack]
    exact UnpackedNumber.unpack_pack_ne_notANumber α
      (UnpackedNumber.add_ne_notANumber (format α) hx' hy')
  rcases UnpackedNumber.isFinite_or_infinity hsum with hfin | ⟨sign, hinf⟩
  · refine Or.inl ?_
    show Scalar.isFinite (flush (flush x.value + flush y.value)) = true
    rw [isFinite_flush, isFinite_eq_unpack]
    exact hfin
  · exact Or.inr ⟨sign, IsInfinity.of_flush hinf⟩

/-- A finite number does not change an infinite one. -/
theorem IsInfinity.add (h : IsInfinity sign x) (hy : Scalar.isFinite y = true) :
    IsInfinity sign (x + y) := by
  have hx' : flush x.value = x.value := flush_of_not_finite h.isFinite_eq_false
  have hy' : (unpack (flush y.value)).isFinite = true := by
    rw [← isFinite_eq_unpack, isFinite_flush]
    exact hy
  refine IsInfinity.of_flush (z := flush x.value + flush y.value) ?_
  rw [hx', add_eq_pack, h, UnpackedNumber.add_infinity_left _ _ hy', unpack_pack_infinity]

theorem max_zero_value (x : Flushed α) :
    (Scalar.max x 0).value = flush (Scalar.max (flush x.value) 0) := by
  have hzero : flush (0 : α) = 0 := flush_of_isZero (by rw [unpack_zero]; exact trivial)
  show flush (Scalar.max (flush x.value) (flush 0)) = _
  rw [hzero]

section Maxima

variable [MaximumLaws α]

/-- The maximum of a finite number with zero is finite. -/
theorem isFinite_max_zero (h : Scalar.isFinite x = true) :
    Scalar.isFinite (Scalar.max x 0) = true := by
  show Scalar.isFinite (Scalar.max x 0).value = true
  rw [max_zero_value, isFinite_flush]
  refine Stationary.isFinite_max_zero ?_
  rw [isFinite_flush]
  exact h

/-- Positive infinity is its own maximum with zero. -/
theorem IsInfinity.max_zero (h : IsInfinity .positive x) :
    IsInfinity .positive (Scalar.max x 0) := by
  have hx : flush x.value = x.value := flush_of_not_finite h.isFinite_eq_false
  have hmax : Scalar.max x.value 0 = x.value := by
    rw [max_zero_eq, h]
  show unpack (Scalar.max x 0).value = _
  rw [max_zero_value, hx, hmax, hx]
  exact h

/-- Negative infinity is below zero, which is finite. -/
theorem IsInfinity.isFinite_max_zero (h : IsInfinity .negative x) :
    Scalar.isFinite (Scalar.max x 0) = true := by
  have hx : flush x.value = x.value := flush_of_not_finite h.isFinite_eq_false
  have hmax : Scalar.max x.value 0 = 0 := by
    rw [max_zero_eq, h]
  show Scalar.isFinite (Scalar.max x 0).value = true
  rw [max_zero_value, hx, hmax, isFinite_flush, isFinite_eq_unpack, unpack_zero]
  rfl

end Maxima

end Flushed

end Stationary
