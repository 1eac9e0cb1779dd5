import Stationary.Proofs.Infinities
import Stationary.Proofs.RoundedFormats

/-!
# Maxima of rounded numbers

A maximum is chosen and not computed, so that its value is the greater of the two values without
being rounded, and there is none if one of the two numbers has none (`RoundedMaximum`). Binary64 and
binary32 have this property, also where subnormal numbers are flushed : flushing is
monotone, and a maximum that has been flushed is not changed by it again.
-/

namespace Stationary

open BinaryFormat RoundedArithmetic
open Float.Model (UnpackedFloat)

/-- The greater of two values, if there are both. -/
noncomputable def greater? (a b : Option EReal) : Option EReal :=
  a.bind fun x => b.map fun y => max x y

theorem greater?_some (x y : EReal) : greater? (some x) (some y) = some (max x y) := rfl

theorem greater?_map {f : EReal → EReal} (hf : Monotone f) (a b : Option EReal) :
    greater? (a.map f) (b.map f) = (greater? a b).map f := by
  cases a with
  | none => rfl
  | some x =>
    cases b with
    | none => rfl
    | some y => exact congrArg some hf.map_max.symm

/-- Maxima have the greater of the two values. -/
class RoundedMaximum (α : Type) [Scalar α] [RoundedArithmetic α] : Prop where
  value_max (x y : α) : value (Scalar.max x y) = greater? (value x) (value y)

section Formats

variable {α : Type} [Scalar α] [BinaryFormat α] [RoundedFormat α]

theorem value_eq_none_iff {x : α} : value x = none ↔ (unpack x).isNaN = true := by
  rw [RoundedFormat.value_eq]
  cases unpack x with
  | infinity sign => cases sign <;> exact iff_of_false (Option.some_ne_none _) Bool.false_ne_true
  | notANumber => exact iff_of_true rfl rfl
  | _ => exact iff_of_false (Option.some_ne_none _) Bool.false_ne_true

theorem value_of_beq_zero {x : α} (h : (unpack x).beq (unpack (0 : α)) = true) :
    value x = some 0 := by
  obtain ⟨c, hx, hc⟩ := (beq_iff_of_canonical (RoundedFormat.inFormat_unpack x).canonical
    (RoundedFormat.inFormat_unpack 0).canonical).1 h
  rw [unpack_zero] at hc
  exact hx.trans hc.symm

/-- The sum of two zeros is a zero. -/
theorem value_add_of_isZero {x y : α} (hx : value x = some 0) (hy : value y = some 0) :
    value (x + y) = some 0 := by
  rw [value_add, hx, hy, sum?, if_neg]
  · rw [add_zero, Option.map_some, roundValue_zero]
  · rintro (⟨h, -⟩ | ⟨h, -⟩)
    · exact EReal.zero_ne_top h
    · exact EReal.zero_ne_bot h

instance [MaximumLaws α] : RoundedMaximum α where
  value_max x y := by
    rw [MaximumLaws.max_eq]
    split
    · rename_i hx
      rw [value_eq_none_iff.2 hx]
      rfl
    · rename_i hx
      split
      · rename_i hy
        rw [value_eq_none_iff.2 hy]
        cases value x <;> rfl
      · rename_i hy
        obtain ⟨a, ha⟩ := Option.ne_none_iff_exists'.1 (mt value_eq_none_iff.1 hx)
        obtain ⟨b, hb⟩ := Option.ne_none_iff_exists'.1 (mt value_eq_none_iff.1 hy)
        have hlt := lt_iff x y
        simp only [ha, hb, Option.some.injEq, exists_and_left, exists_eq_left'] at hlt
        rw [ha, hb, greater?_some]
        split
        · rename_i hxy
          rw [hb, max_eq_right (hlt.1 hxy).le]
        · rename_i hxy
          have hle : b ≤ a := not_lt.1 (mt hlt.2 hxy)
          rw [max_eq_left hle]
          split
          · rename_i hzeros
            obtain ⟨hzero, hzero'⟩ := Bool.and_eq_true_iff.1 hzeros
            rw [value_add_of_isZero (value_of_beq_zero hzero) (value_of_beq_zero hzero'), ← ha,
              value_of_beq_zero hzero]
          · exact ha

end Formats

section Flushing

variable {α : Type} [Scalar α] [Subnormal α] [RoundedArithmetic α] [PositiveNormal α]

instance [RoundedMaximum α] : RoundedMaximum (Flushed α) where
  value_max x y := by
    show (value (flush (Scalar.max (flush x.value) (flush y.value)))).map (flushing α) =
      greater? ((value x.value).map (flushing α)) ((value y.value).map (flushing α))
    rw [value_flush, map_flushing_flushing, RoundedMaximum.value_max, value_flush, value_flush,
      ← greater?_map (flushing_mono α), map_flushing_flushing, map_flushing_flushing]

/-- What is stored of a maximum is what the arithmetic computes with. -/
theorem value_value_max (x y : Flushed α) :
    value (Scalar.max x y).value = value (Scalar.max x y) := by
  show value (flush (Scalar.max (flush x.value) (flush y.value))) =
    (value (flush (Scalar.max (flush x.value) (flush y.value)))).map (flushing α)
  rw [value_flush, map_flushing_flushing]

end Flushing

end Stationary
