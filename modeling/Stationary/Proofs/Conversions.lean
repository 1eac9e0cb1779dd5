import Stationary.Literal
import Stationary.Proofs.RoundedFormats

/-!
# Conversions

A number that enters an arithmetic is rounded : natural numbers, integers of any size and
binary64 numbers (`RoundedConversions`). So the numbers of literals are the rounded values of the
literals (`Literal.value_embed`), and literals in order become numbers in order
(`Literal.dominated_embed`).
-/

namespace Stationary

open BinaryFormat RoundedArithmetic
open Float.Model (Format UnpackedFloat totalExponent)
open Float.Model.UnpackedFloat

/-! ## Unpacked numbers -/

section Unpacked

variable {f : Format}

theorem rounds_ofNat (f : Format) (n : ℕ) : Rounds f n (UnpackedFloat.ofNat f n) := by
  have h := rounds_normalize f n 0 .positive
  rw [zpow_zero, mul_one] at h
  exact_mod_cast h

theorem rounds_ofScientific (f : Format) {n : ℕ} (hn : 0 < n) :
    Rounds f n (UnpackedFloat.ofScientific f n 0) := by
  have hshift : 0 < n <<< f.mantissaBits := by
    rw [Nat.shiftLeft_eq]
    positivity
  have hlog : f.mantissaBits ≤ (n <<< f.mantissaBits).log2 := by
    rw [Nat.shiftLeft_eq, log2_mul_two_pow hn]
    omega
  have h := rounds_exact (f := f) .positive (m := n <<< f.mantissaBits * 10 ^ (0 : ℤ).toNat)
    (e := -(f.mantissaBits : ℤ) + 0) (by simpa using hshift) (by
      unfold Format.targetExponent totalExponent
      simp only [Int.toNat_zero, pow_zero, mul_one]
      omega)
  have hvalue : signed .positive ((n <<< f.mantissaBits * 10 ^ (0 : ℤ).toNat : ℕ) *
      (2 : ℝ) ^ (-(f.mantissaBits : ℤ) + 0)) = n := by
    rw [signed, Int.toNat_zero, pow_zero, mul_one, Nat.shiftLeft_eq, add_zero, zpow_neg,
      zpow_natCast]
    push_cast
    field_simp
  rw [hvalue] at h
  have hpow : (0 : ℤ) ≤ 2 ^ f.exponentBits := by positivity
  unfold UnpackedFloat.ofScientific
  rw [dif_neg hn.ne', if_neg (by omega), if_neg (by omega), if_pos le_rfl]
  exact h

/-- A number rounded to a format keeps its value up to rounding. -/
theorem canonical_roundedTo (f : Format) (u : UnpackedFloat) : Canonical f (roundedTo f u) := by
  cases u with
  | finite s m e hm => exact (rounds_round s e hm).canonical
  | _ => trivial

theorem valueOf_roundedTo (hf : 0 < f.exponentBias) (u : UnpackedFloat) :
    valueOf (overflowed f (roundedTo f u)) = (valueOf u).map (roundedValue f) := by
  cases u with
  | finite s m e hm => exact (rounds_round s e hm).valueOf_overflowed hf
  | infinity s => cases s <;> rfl
  | zero s => exact (rounds_zero f s).valueOf_overflowed hf
  | notANumber => rfl

theorem rounded_neg (f : Format) (x : ℝ) : rounded f (-x) = -rounded f x := by
  have hnearest : signedNearest f (-x) = -signedNearest f x := by
    unfold signedNearest
    rcases lt_trichotomy x 0 with hx | rfl | hx
    · rw [if_pos (by linarith), if_neg (by linarith), neg_neg]
    · simp [nearest_zero]
    · rw [if_neg (by linarith), if_pos hx.le, neg_neg]
  have hbound := bound_pos f
  unfold rounded overflow
  rw [hnearest]
  by_cases hlarge : bound f ≤ signedNearest f x
  · rw [if_neg (by linarith), if_pos (by linarith), if_pos hlarge, EReal.neg_top]
  · by_cases hsmall : signedNearest f x ≤ -bound f
    · rw [if_pos (by linarith), if_neg hlarge, if_pos hsmall, EReal.neg_bot]
    · rw [if_neg (by linarith), if_neg (by linarith), if_neg hlarge, if_neg hsmall,
        EReal.coe_neg]

end Unpacked

/-! ## Numbers that enter an arithmetic -/

/-- Numbers that enter the arithmetic are rounded. -/
class RoundedConversions (α : Type) [Elementary α] [RoundedArithmetic α] : Prop where
  value_ofNat (n : ℕ) : value (Scalar.ofNat n : α) = some (roundValue α (n : ℝ))
  value_ofInt (i : ℤ) : value (Elementary.ofInt i : α) = some (roundValue α (i : ℝ))
  value_ofFloat (x : Float) : value (Elementary.ofFloat x : α) = (value x).map (roundValue α)

section Formats

variable {α : Type} [Scalar α] [BinaryFormat α] [RoundedFormat α] {u : UnpackedFloat}

theorem value_of_rounds {x : ℝ} (h : Rounds (format α) x u) :
    value (pack u : α) = some (roundValue α x) := by
  show valueOf (unpack (pack u : α)) = _
  rw [RoundedFormat.unpack_pack_of_canonical h.canonical,
    h.valueOf_overflowed RoundedFormat.exponentBias_pos]
  rfl

theorem value_pack_roundedTo (u : UnpackedFloat) :
    value (pack (roundedTo (format α) u) : α) = (valueOf u).map (roundValue α) := by
  show valueOf (unpack (pack (roundedTo (format α) u) : α)) = _
  rw [RoundedFormat.unpack_pack_of_canonical (canonical_roundedTo _ u),
    valueOf_roundedTo RoundedFormat.exponentBias_pos]
  rfl

theorem value_two_pow {x : α} {m k : ℕ} {e t : ℤ} {h : 0 < m}
    (hx : unpack x = .finite .positive m e h) (hm : m = 2 ^ k) (ht : k + e = t) :
    value x = some (((2 : ℝ) ^ t : ℝ) : EReal) := by
  rw [RoundedFormat.value_eq, hx, valueOf, signed, ← ht, zpow_add₀ two_ne_zero, zpow_natCast, hm]
  push_cast
  rfl

theorem value_mul_one {x y : α} {a : EReal} (hx : value x = some a) (hy : value y = some 1) :
    value (x * y) = some a := by
  rw [value_mul, hx, hy, product?, if_neg, mul_one, Option.map_some, roundValue_of_value hx]
  rintro (⟨-, h | h⟩ | ⟨h, -⟩)
  · exact absurd h (EReal.coe_ne_top 1)
  · exact absurd h (EReal.coe_ne_bot 1)
  · exact absurd h one_ne_zero

/-- A natural number enters a format as it is read from 64 bits, or as a decimal number. -/
theorem value_natural {n : ℕ} {x one : α} (hone : value one = some 1)
    (h : x = pack (UnpackedFloat.ofNat (format α) n) * one ∨
      0 < n ∧ x = pack (UnpackedFloat.ofScientific (format α) n 0)) :
    value x = some (roundValue α (n : ℝ)) := by
  rcases h with rfl | ⟨hn, rfl⟩
  · exact value_mul_one (value_of_rounds (rounds_ofNat _ n)) hone
  · exact value_of_rounds (rounds_ofScientific _ hn)

/-- An integer enters a format as a natural number with its sign. -/
theorem value_integer {ofNat : ℕ → α} (h : ∀ n, value (ofNat n) = some (roundValue α (n : ℝ)))
    (i : ℤ) : value (match i with
      | .ofNat n => ofNat n
      | .negSucc n => -ofNat n.succ) = some (roundValue α (i : ℝ)) := by
  cases i with
  | ofNat n => exact h n
  | negSucc n =>
    have hneg : ((Int.negSucc n : ℤ) : ℝ) = -((n.succ : ℕ) : ℝ) := by
      push_cast [Int.negSucc_eq]
      ring
    show value (-ofNat n.succ) = _
    rw [value_neg, h, hneg]
    exact congrArg some (rounded_neg _ _).symm

theorem toNat_toUInt64 {n k : ℕ} (hn : n < 2 ^ k) (hk : k ≤ 64) : n.toUInt64.toNat = n := by
  have hlt : n < 2 ^ 64 := hn.trans_le (Nat.pow_le_pow_right two_pos hk)
  rw [Nat.toUInt64, UInt64.toNat_ofNat', Nat.mod_eq_of_lt hlt]

end Formats

theorem value_one_binary64 : value (Float.ofBits 0x3FF0000000000000) = some 1 := by
  have h : unpack (Float.ofBits 0x3FF0000000000000) =
      .finite .positive 4503599627370496 (-52) (by decide) := rfl
  rw [value_two_pow h (k := 52) (t := 0) (by norm_num) (by norm_num), zpow_zero]
  rfl

theorem value_one_binary32 : value (Float32.ofBits 0x3F800000) = some 1 := by
  have h : unpack (Float32.ofBits 0x3F800000) =
      .finite .positive 8388608 (-23) (by decide) := rfl
  rw [value_two_pow h (k := 23) (t := 0) (by norm_num) (by norm_num), zpow_zero]
  rfl

theorem value_ofNat_binary64 (n : ℕ) : value (Float.ofNat n) = some (roundValue Float (n : ℝ)) := by
  refine value_natural value_one_binary64 ?_
  show Float.ofScientific n false 0 = _ ∨ 0 < n ∧ Float.ofScientific n false 0 = _
  unfold Float.ofScientific
  by_cases hn : n < 2 ^ 53
  · have hword : n.toUInt64.toFloat = pack (UnpackedFloat.ofNat (format Float) n) := by
      show pack (UnpackedFloat.ofNat (format Float) n.toUInt64.toNat) = _
      rw [toNat_toUInt64 hn (by decide)]
    rw [dif_pos ⟨hn, by decide⟩]
    exact Or.inl (congrArg (· * Float.ofBits 0x3FF0000000000000) hword)
  · rw [dif_neg fun h => hn h.1]
    exact Or.inr ⟨by omega, rfl⟩

theorem value_ofNat_binary32 (n : ℕ) :
    value (Float32.ofNat n) = some (roundValue Float32 (n : ℝ)) := by
  refine value_natural value_one_binary32 ?_
  show Float32.ofScientific n false 0 = _ ∨ 0 < n ∧ Float32.ofScientific n false 0 = _
  unfold Float32.ofScientific
  by_cases hn : n < 2 ^ 23
  · have hword : n.toUInt64.toFloat32 = pack (UnpackedFloat.ofNat (format Float32) n) := by
      show pack (UnpackedFloat.ofNat (format Float32) n.toUInt64.toNat) = _
      rw [toNat_toUInt64 hn (by decide)]
    rw [dif_pos ⟨hn, by decide⟩]
    exact Or.inl (congrArg (· * Float32.ofBits 0x3F800000) hword)
  · rw [dif_neg fun h => hn h.1]
    exact Or.inr ⟨by omega, rfl⟩

instance : RoundedConversions Float where
  value_ofNat := value_ofNat_binary64
  value_ofInt i := by
    refine Eq.trans ?_ (value_integer value_ofNat_binary64 i)
    cases i <;> rfl
  value_ofFloat x := (roundValue_value x).symm

instance : RoundedConversions Float32 where
  value_ofNat := value_ofNat_binary32
  value_ofInt i := by
    refine Eq.trans ?_ (value_integer value_ofNat_binary32 i)
    cases i <;> rfl
  value_ofFloat x := value_pack_roundedTo (α := Float32) (unpack x)

instance {α : Type} [Elementary α] [Subnormal α] [RoundedArithmetic α] [PositiveNormal α]
    [RoundedConversions α] : RoundedConversions (Flushed α) where
  value_ofNat n := by
    show (value (Scalar.ofNat n : α)).map (flushing α) = _
    rw [RoundedConversions.value_ofNat]
    rfl
  value_ofInt i := by
    show (value (Elementary.ofInt i : α)).map (flushing α) = _
    rw [RoundedConversions.value_ofInt]
    rfl
  value_ofFloat x := by
    show (value (Elementary.ofFloat x : α)).map (flushing α) = _
    rw [RoundedConversions.value_ofFloat, Option.map_map]
    rfl

/-! ## Smallest normal numbers -/

theorem value_smallestNormal_binary64 :
    value (Subnormal.smallestNormal : Float) = some (smallestNormal (format Float) : EReal) := by
  have h : unpack (Subnormal.smallestNormal : Float) =
      .finite .positive 4503599627370496 (-1074) (by decide) := rfl
  exact value_two_pow h (k := 52) (by norm_num) (by decide)

theorem value_smallestNormal_binary32 : value (Subnormal.smallestNormal : Float32) =
    some (smallestNormal (format Float32) : EReal) := by
  have h : unpack (Subnormal.smallestNormal : Float32) =
      .finite .positive 8388608 (-149) (by decide) := rfl
  exact value_two_pow h (k := 23) (by norm_num) (by decide)

noncomputable instance : PositiveNormal Float where
  threshold := smallestNormal (format Float)
  threshold_pos := smallestNormal_pos _
  value_smallestNormal := value_smallestNormal_binary64

noncomputable instance : PositiveNormal Float32 where
  threshold := smallestNormal (format Float32)
  threshold_pos := smallestNormal_pos _
  value_smallestNormal := value_smallestNormal_binary32

/-! ## Literals -/

namespace Literal

/-- The value of a literal, if it has one. -/
noncomputable def value : Literal → Option EReal
  | whole i => some (i : ℝ)
  | float x => RoundedArithmetic.value x

variable {α : Type} [Elementary α] [RoundedArithmetic α] [RoundedConversions α]

/-- The number of a literal is its rounded value. -/
theorem value_embed (l : Literal) :
    RoundedArithmetic.value (l.embed : α) = l.value.map (roundValue α) := by
  cases l with
  | whole i => exact RoundedConversions.value_ofInt i
  | float x => exact RoundedConversions.value_ofFloat x

/-- The numbers of literals in order are in order. -/
theorem dominated_embed {l l' : Literal} {a b : EReal} (hl : l.value = some a)
    (hl' : l'.value = some b) (h : a ≤ b) : Dominated (l.embed : α) l'.embed := by
  intro c hc
  rw [value_embed, hl, Option.map_some] at hc
  obtain rfl := Option.some.inj hc
  exact ⟨roundValue α b, by rw [value_embed, hl', Option.map_some], roundValue_mono h⟩

theorem nonneg_embed {l : Literal} {a : EReal} (hl : l.value = some a) (h : 0 ≤ a) :
    AtLeast 0 (l.embed : α) := by
  intro c hc
  rw [value_embed, hl, Option.map_some] at hc
  obtain rfl := Option.some.inj hc
  exact roundValue_nonneg h

end Literal

end Stationary
