import Stationary.Proofs.Flushing
import Stationary.Proofs.RoundedArithmetic

/-!
# Binary formats as rounded arithmetic

The numbers of a binary format have the values of their unpacked forms, and the operations
round to the format. Without subnormal numbers a value of small magnitude counts as
zero (`flushedValue`), before an operation and after it.
-/

namespace Stationary

open BinaryFormat RoundedArithmetic
open Float.Model (Format UnpackedFloat)

/-! ## Binary formats -/

/-- A format with subtraction and the weak order. -/
class RoundedFormat (α : Type) [Scalar α] [BinaryFormat α] : Prop where
  exponentBias_pos : 0 < (format α).exponentBias
  sub_eq_pack (x y : α) : x - y = pack (.sub (format α) (unpack x) (unpack y))
  le_eq_unpack (x y : α) : Scalar.le x y = (unpack x).le (unpack y)

instance : RoundedFormat Float where
  exponentBias_pos := by decide
  sub_eq_pack _ _ := rfl
  le_eq_unpack x y := by
    show decide (decide (x.toModel.unpack.le y.toModel.unpack = true) = true) = _
    rw [Bool.decide_eq_true, Bool.decide_eq_true]
    rfl

instance : RoundedFormat Float32 where
  exponentBias_pos := by decide
  sub_eq_pack _ _ := rfl
  le_eq_unpack x y := by
    show decide (decide (x.toModel.unpack.le y.toModel.unpack = true) = true) = _
    rw [Bool.decide_eq_true, Bool.decide_eq_true]
    rfl

namespace RoundedFormat

variable {α : Type} [Scalar α] [BinaryFormat α] [RoundedFormat α] {u : UnpackedFloat}

theorem inFormat_unpack (x : α) : InFormat (format α) (unpack x) := by
  rw [← pack_unpack x, unpack_pack]
  exact Stationary.inFormat_unpack exponentBias_pos _

omit [RoundedFormat α] in
theorem unpack_pack_of_canonical (h : Canonical (format α) u) :
    unpack (pack u : α) = overflowed (format α) u := by
  rw [unpack_pack]
  exact Stationary.unpack_pack_of_canonical h

omit [RoundedFormat α] in
theorem unpack_pack_of_inFormat (h : InFormat (format α) u) : unpack (pack u : α) = u := by
  rw [unpack_pack_of_canonical h.canonical, h.fits]

noncomputable instance : RoundedArithmetic α where
  value x := valueOf (unpack x)
  roundValue := roundedValue (format α)
  roundValue_mono := roundedValue_mono _
  roundValue_value x := roundedValue_valueOf exponentBias_pos (inFormat_unpack x)
  value_zero := by
    rw [unpack_zero]
    rfl
  value_neg x := by
    rw [neg_eq_pack, unpack_pack_of_inFormat (inFormat_unpack x).neg, valueOf_neg]
  value_abs x := by
    rw [abs_eq_pack, unpack_pack_of_inFormat (inFormat_unpack x).abs, valueOf_abs]
  value_add x y := by
    have hx := (inFormat_unpack x).canonical
    have hy := (inFormat_unpack y).canonical
    rw [add_eq_pack, unpack_pack_of_canonical (canonical_add hx hy),
      valueOf_add exponentBias_pos hx hy]
  value_sub x y := by
    have hx := (inFormat_unpack x).canonical
    have hy := (inFormat_unpack y).neg.canonical
    rw [sub_eq_pack, unpacked_sub_eq, unpack_pack_of_canonical (canonical_add hx hy),
      valueOf_add exponentBias_pos hx hy, valueOf_neg]
  value_mul x y := by
    have hx := (inFormat_unpack x).canonical
    have hy := (inFormat_unpack y).canonical
    rw [mul_eq_pack, unpack_pack_of_canonical (canonical_mul exponentBias_pos hx hy),
      valueOf_mul exponentBias_pos hx hy]
  value_sqrt x := by
    rw [sqrt_eq_pack, unpack_pack_of_canonical (canonical_sqrt (inFormat_unpack x).canonical),
      valueOf_sqrt exponentBias_pos]
  lt_iff x y := by
    rw [lt_eq_unpack]
    exact lt_iff_of_canonical (inFormat_unpack x).canonical (inFormat_unpack y).canonical
  le_iff x y := by
    rw [le_eq_unpack]
    exact le_iff_of_canonical (inFormat_unpack x).canonical (inFormat_unpack y).canonical
  isFinite_iff x := by
    rw [isFinite_eq_unpack]
    constructor
    · intro h
      rcases value_cases (unpack x) with hx | ⟨s, hx⟩ | hx
      · rw [hx] at h
        cases h
      · rw [hx] at h
        cases h
      · exact hx
    · rintro ⟨a, ha⟩
      rcases cases_of_valueOf ha with ⟨s, hs, -⟩ | ⟨s, m, e, hm, hs, -⟩ <;>
        rw [hs] <;> rfl

theorem value_eq (x : α) : value x = valueOf (unpack x) := rfl

end RoundedFormat

/-! ## Without subnormal numbers -/

/-- The smallest normal number has a positive value. -/
class PositiveNormal (α : Type) [Scalar α] [Subnormal α] [RoundedArithmetic α] where
  threshold : ℝ
  threshold_pos : 0 < threshold
  value_smallestNormal : value (Subnormal.smallestNormal : α) = some (threshold : EReal)

/-- A value, or zero if its magnitude is below the threshold. -/
noncomputable def flushedValue (t : ℝ) (a : EReal) : EReal :=
  if max a (-a) < t then 0 else a

section FlushedValue

variable {t : ℝ} {a b : EReal}

theorem max_neg_lt_iff {c : EReal} : max a (-a) < c ↔ -c < a ∧ a < c := by
  rw [max_lt_iff, EReal.neg_lt_comm, and_comm]

theorem flushedValue_zero (t : ℝ) : flushedValue t 0 = 0 := by
  unfold flushedValue
  split <;> rfl

theorem flushedValue_mono (ht : 0 < t) : Monotone (flushedValue t) := by
  intro a b h
  have hpos : (0 : EReal) < t := EReal.coe_pos.2 ht
  have hneg : -(t : EReal) < 0 := EReal.neg_lt_zero.2 hpos
  unfold flushedValue
  simp only [max_neg_lt_iff]
  by_cases ha : -(t : EReal) < a ∧ a < t
  · rw [if_pos ha]
    split
    · exact le_rfl
    · rename_i hb
      have hle : (t : EReal) ≤ b := not_lt.1 fun hlt => hb ⟨ha.1.trans_le h, hlt⟩
      exact hpos.le.trans hle
  · rw [if_neg ha]
    split
    · rename_i hb
      have hle : a ≤ -(t : EReal) := not_lt.1 fun hlt => ha ⟨hlt, h.trans_lt hb.2⟩
      exact hle.trans hneg.le
    · exact h

theorem flushedValue_neg (t : ℝ) (a : EReal) : flushedValue t (-a) = -flushedValue t a := by
  unfold flushedValue
  rw [neg_neg, max_comm]
  split
  · exact neg_zero.symm
  · rfl

theorem flushedValue_flushedValue (t : ℝ) (a : EReal) :
    flushedValue t (flushedValue t a) = flushedValue t a := by
  by_cases h : max a (-a) < t
  · have hzero : flushedValue t a = 0 := if_pos h
    rw [hzero, flushedValue_zero]
  · have hself : flushedValue t a = a := if_neg h
    rw [hself, hself]

theorem flushedValue_abs (ht : 0 < t) (a : EReal) :
    flushedValue t (max a (-a)) = max (flushedValue t a) (-flushedValue t a) := by
  rw [← flushedValue_neg]
  exact (flushedValue_mono ht).map_max

theorem flushedValue_eq_or (t : ℝ) (a : EReal) : flushedValue t a = 0 ∨ flushedValue t a = a := by
  unfold flushedValue
  split
  · exact Or.inl rfl
  · exact Or.inr rfl

/-- Flushing makes no value infinite or finite. -/
theorem flushedValue_coe_iff (t : ℝ) (o : Option EReal) :
    (∃ r : ℝ, o.map (flushedValue t) = some (r : EReal)) ↔ ∃ r : ℝ, o = some (r : EReal) := by
  constructor
  · rintro ⟨r, hr⟩
    obtain ⟨a, rfl, ha⟩ := Option.map_eq_some_iff.1 hr
    unfold flushedValue at ha
    split at ha
    · rename_i hsmall
      obtain ⟨hlow, hhigh⟩ := max_neg_lt_iff.1 hsmall
      lift a to ℝ using ⟨hhigh.ne_top, (bot_lt_iff_ne_bot.1 (bot_le.trans_lt hlow))⟩
      exact ⟨a, rfl⟩
    · exact ⟨r, congrArg some ha⟩
  · rintro ⟨r, rfl⟩
    rcases flushedValue_eq_or t r with h | h
    · exact ⟨0, congrArg some h⟩
    · exact ⟨r, congrArg some h⟩

end FlushedValue

section Flushing

variable {α : Type} [Scalar α] [Subnormal α] [RoundedArithmetic α] [PositiveNormal α]

variable (α) in
/-- The value with which the arithmetic computes, for that of a number. -/
noncomputable def flushing : EReal → EReal :=
  flushedValue (PositiveNormal.threshold α)

variable (α) in
theorem flushing_mono : Monotone (flushing α) :=
  flushedValue_mono PositiveNormal.threshold_pos

theorem map_flushing_flushing (o : Option EReal) :
    (o.map (flushing α)).map (flushing α) = o.map (flushing α) := by
  rw [Option.map_map]
  exact congrArg (o.map ·) (funext fun a => flushedValue_flushedValue _ a)

/-- The value of a number that is flushed. -/
theorem value_flush (x : α) :
    value (flush x) = (value x).map (flushing α) := by
  have hlt := lt_iff (Scalar.abs x) (Subnormal.smallestNormal : α)
  rw [value_abs, PositiveNormal.value_smallestNormal] at hlt
  unfold flush isSubnormal
  cases hx : value x with
  | none =>
    rw [hx] at hlt
    rw [if_neg, hx]
    · rfl
    · rw [hlt]
      rintro ⟨a, b, ha, -⟩
      cases ha
  | some a =>
    rw [hx] at hlt
    rw [Option.map_some, flushing, flushedValue]
    split
    · rename_i hsub
      obtain ⟨c, d, hc, hd, hcd⟩ := hlt.1 hsub
      obtain rfl := Option.some.inj hc
      obtain rfl := Option.some.inj hd
      obtain ⟨hlow, hhigh⟩ := max_neg_lt_iff.1 hcd
      rw [if_pos hcd, value_mul, hx, value_zero, product?, if_neg]
      · rw [mul_zero, Option.map_some, roundValue_zero]
      · rintro (⟨-, h | h⟩ | ⟨-, h | h⟩)
        · exact EReal.zero_ne_top h
        · exact EReal.zero_ne_bot h
        · exact hhigh.ne_top h
        · exact (bot_le.trans_lt hlow).ne' h
    · rename_i hsub
      rw [hx, if_neg fun h => hsub (hlt.2 ⟨_, _, rfl, rfl, h⟩)]

/-- Without subnormal numbers. -/
noncomputable instance : RoundedArithmetic (Flushed α) where
  value x := (value x.value).map (flushing α)
  roundValue a := flushing α (roundValue α a)
  roundValue_mono := (flushing_mono α).comp roundValue_mono
  roundValue_value x := by
    cases hx : value x.value with
    | none => rfl
    | some a =>
      simp only [Option.map_some, Option.some.injEq]
      rcases flushedValue_eq_or (PositiveNormal.threshold α) a with h | h
      · rw [flushing, h, roundValue_zero, flushedValue_zero]
      · rw [flushing, h, roundValue_of_value hx, h]
  value_zero := by
    show (value (0 : α)).map (flushing α) = some 0
    rw [value_zero, Option.map_some, flushing, flushedValue_zero]
  value_neg x := by
    show (value (-x.value)).map (flushing α) = _
    rw [value_neg, Option.map_map, Option.map_map]
    exact congrArg (Option.map · _) (funext fun a => flushedValue_neg _ a)
  value_abs x := by
    show (value (Scalar.abs x.value)).map (flushing α) = _
    rw [value_abs, Option.map_map, Option.map_map]
    exact congrArg (Option.map · _)
      (funext fun a => flushedValue_abs PositiveNormal.threshold_pos a)
  value_add x y := by
    show (value (flush (flush x.value + flush y.value))).map (flushing α) = _
    rw [value_flush, map_flushing_flushing, value_add, value_flush, value_flush, Option.map_map]
    rfl
  value_sub x y := by
    show (value (flush (flush x.value - flush y.value))).map (flushing α) = _
    have hneg : (value (flush y.value)).map (- ·) = ((value y.value).map (flushing α)).map (- ·) :=
      congrArg (Option.map (- ·)) (value_flush y.value)
    rw [value_flush, map_flushing_flushing, value_sub, value_flush x.value, hneg, Option.map_map]
    rfl
  value_mul x y := by
    show (value (flush (flush x.value * flush y.value))).map (flushing α) = _
    rw [value_flush, map_flushing_flushing, value_mul, value_flush, value_flush, Option.map_map]
    rfl
  value_sqrt x := by
    show (value (flush (Scalar.sqrt (flush x.value)))).map (flushing α) = _
    rw [value_flush, map_flushing_flushing, value_sqrt, value_flush, Option.map_map]
    rfl
  lt_iff x y := by
    show Scalar.lt (flush x.value) (flush y.value) = true ↔ _
    rw [lt_iff, value_flush, value_flush]
  le_iff x y := by
    show Scalar.le (flush x.value) (flush y.value) = true ↔ _
    rw [le_iff, value_flush, value_flush]
  isFinite_iff x := by
    show Scalar.isFinite x.value = true ↔ _
    rw [isFinite_iff]
    exact (flushedValue_coe_iff _ _).symm

end Flushing

end Stationary
