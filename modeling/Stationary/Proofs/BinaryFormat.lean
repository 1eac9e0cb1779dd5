import Mathlib
import Stationary.Flushed

/-!
# Binary formats

The numbers of a `BinaryFormat` are computed with unpacked and packed again. Its laws say so
of every operation, and that a number comes back from its unpacked form; binary64 and
binary32 are the two instances. What follows from the laws holds in both.

Two kinds of numbers matter to the iteration. Nothing is above what is not a number, nor
above positive infinity, and a sum, a square or a root has this property as soon as an
argument has it (`IsTop`). Zeros on the other hand change a sum only in the sign of a
zero, and make a product zero, except where the other factor is not finite, when the
product is not a number (`IsZero`).
-/

namespace Stationary

open Float.Model (Format UnpackedFloat)

/-- A format whose numbers are unpacked, computed with and packed again. -/
class BinaryFormat (α : Type) [Scalar α] where
  format : Format
  unpack : α → UnpackedFloat
  pack : UnpackedFloat → α
  pack_unpack (x : α) : pack (unpack x) = x
  unpack_pack (u : UnpackedFloat) : unpack (pack u) = .unpack format (UnpackedFloat.pack format u)
  zero_eq_pack : (0 : α) = pack (.zero .positive)
  add_eq_pack (x y : α) : x + y = pack (.add format (unpack x) (unpack y))
  mul_eq_pack (x y : α) : x * y = pack (.mul format (unpack x) (unpack y))
  neg_eq_pack (x : α) : -x = pack (.neg (unpack x))
  abs_eq_pack (x : α) : Scalar.abs x = pack (.abs (unpack x))
  sqrt_eq_pack (x : α) : Scalar.sqrt x = pack (.sqrt format (unpack x))
  lt_eq_unpack (x y : α) : Scalar.lt x y = (unpack x).lt (unpack y)
  isFinite_eq_unpack (x : α) : Scalar.isFinite x = (unpack x).isFinite

/-- Binary64. -/
instance : BinaryFormat Float where
  format := .binary64
  unpack x := x.toModel.unpack
  pack u := .ofModel (.pack u)
  pack_unpack := Float.ofBits_toBits
  unpack_pack _ := rfl
  zero_eq_pack := rfl
  add_eq_pack _ _ := rfl
  mul_eq_pack _ _ := rfl
  neg_eq_pack _ := rfl
  abs_eq_pack _ := rfl
  sqrt_eq_pack _ := rfl
  lt_eq_unpack x y := by
    show decide (decide (x.toModel.unpack.lt y.toModel.unpack = true) = true) = _
    rw [Bool.decide_eq_true, Bool.decide_eq_true]
  isFinite_eq_unpack _ := rfl

/-- Binary32. -/
instance : BinaryFormat Float32 where
  format := .binary32
  unpack x := x.toModel.unpack
  pack u := .ofModel (.pack u)
  pack_unpack := Float32.ofBits_toBits
  unpack_pack _ := rfl
  zero_eq_pack := rfl
  add_eq_pack _ _ := rfl
  mul_eq_pack _ _ := rfl
  neg_eq_pack _ := rfl
  abs_eq_pack _ := rfl
  sqrt_eq_pack _ := rfl
  lt_eq_unpack x y := by
    show decide (decide (x.toModel.unpack.lt y.toModel.unpack = true) = true) = _
    rw [Bool.decide_eq_true, Bool.decide_eq_true]
  isFinite_eq_unpack _ := rfl

namespace BinaryFormat

variable {α : Type} [Scalar α] [BinaryFormat α]

@[simp] theorem unpack_pack_notANumber : unpack (pack .notANumber : α) = .notANumber := by
  rw [unpack_pack]
  exact UnpackedFloat.unpack_packedNaN

@[simp] theorem unpack_pack_zero (sign : UnpackedFloat.Sign) :
    unpack (pack (.zero sign) : α) = .zero sign := by
  rw [unpack_pack]
  exact UnpackedFloat.unpack_packedZero

@[simp] theorem unpack_pack_infinity (sign : UnpackedFloat.Sign) :
    unpack (pack (.infinity sign) : α) = .infinity sign := by
  rw [unpack_pack]
  simp [UnpackedFloat.pack, UnpackedFloat.unpack, UnpackedFloat.packedInfinity]

theorem unpack_zero : unpack (0 : α) = .zero .positive := by
  rw [zero_eq_pack, unpack_pack_zero]

end BinaryFormat

/-! ## Unpacked numbers that nothing is above -/

/-- Not a number, or positive infinity. -/
def IsTop : UnpackedFloat → Prop
  | .notANumber => True
  | .infinity .positive => True
  | _ => False

/-- Zero, of any sign. -/
def IsZero : UnpackedFloat → Prop
  | .zero _ => True
  | _ => False

namespace IsTop

variable {u v : UnpackedFloat}

theorem cases_of (h : IsTop u) : u = .notANumber ∨ u = .infinity .positive := by
  unfold IsTop at h
  split at h
  · exact Or.inl rfl
  · exact Or.inr rfl
  · exact h.elim

theorem lt_eq_false (h : IsTop u) (v : UnpackedFloat) : u.lt v = false := by
  rcases h.cases_of with rfl | rfl
  · rfl
  · cases v with
    | infinity sign => cases sign <;> rfl
    | _ => rfl

theorem isFinite_eq_false (h : IsTop u) : u.isFinite = false := by
  rcases h.cases_of with rfl | rfl <;> rfl

theorem abs_of_not_finite (h : u.isFinite = false) : IsTop u.abs := by
  cases u with
  | zero sign => cases h
  | finite sign mantissa exponent hpos => cases h
  | _ => exact trivial

theorem mul_self (format : Format) (h : u.isFinite = false) :
    IsTop (UnpackedFloat.mul format u u) := by
  cases u with
  | infinity sign => cases sign <;> exact trivial
  | notANumber => exact trivial
  | zero sign => cases h
  | finite sign mantissa exponent hpos => cases h

theorem add_left (format : Format) (h : IsTop u) (v : UnpackedFloat) :
    IsTop (UnpackedFloat.add format u v) := by
  rcases h.cases_of with rfl | rfl
  · exact trivial
  · cases v with
    | infinity sign => cases sign <;> exact trivial
    | _ => exact trivial

theorem add_right (format : Format) (u : UnpackedFloat) (h : IsTop v) :
    IsTop (UnpackedFloat.add format u v) := by
  rcases h.cases_of with rfl | rfl
  · cases u <;> exact trivial
  · cases u with
    | infinity sign => cases sign <;> exact trivial
    | _ => exact trivial

theorem sqrt (format : Format) (h : IsTop u) : IsTop (UnpackedFloat.sqrt format u) := by
  rcases h.cases_of with rfl | rfl <;> exact trivial

theorem unpack_pack (α : Type) [Scalar α] [BinaryFormat α] (h : IsTop u) :
    IsTop (BinaryFormat.unpack (BinaryFormat.pack u : α)) := by
  rcases h.cases_of with rfl | rfl
  · rw [BinaryFormat.unpack_pack_notANumber]
    exact trivial
  · rw [BinaryFormat.unpack_pack_infinity]
    exact trivial

end IsTop

namespace IsZero

variable {u v : UnpackedFloat}

theorem exists_sign (h : IsZero u) : ∃ sign, u = .zero sign := by
  cases u with
  | zero sign => exact ⟨sign, rfl⟩
  | _ => exact h.elim

theorem unpack_pack (α : Type) [Scalar α] [BinaryFormat α] (h : IsZero u) :
    IsZero (BinaryFormat.unpack (BinaryFormat.pack u : α)) := by
  obtain ⟨sign, rfl⟩ := h.exists_sign
  rw [BinaryFormat.unpack_pack_zero]
  exact trivial

/-- Zeros of both signs compare alike. -/
theorem lt_congr (hu : IsZero u) (hv : IsZero v) (w : UnpackedFloat) : w.lt u = w.lt v := by
  obtain ⟨s, rfl⟩ := hu.exists_sign
  obtain ⟨t, rfl⟩ := hv.exists_sign
  cases w with
  | infinity sign => cases sign <;> rfl
  | finite sign mantissa exponent hpos => cases sign <;> rfl
  | _ => rfl

theorem add (format : Format) (hu : IsZero u) (hv : IsZero v) :
    IsZero (UnpackedFloat.add format u v) := by
  obtain ⟨s, rfl⟩ := hu.exists_sign
  obtain ⟨t, rfl⟩ := hv.exists_sign
  cases s <;> cases t <;> exact trivial

/-- A zero changes no sum but with another zero. -/
theorem add_eq_left (format : Format) (hu : ¬IsZero u) (hv : IsZero v) :
    UnpackedFloat.add format u v = u := by
  obtain ⟨t, rfl⟩ := hv.exists_sign
  cases u with
  | zero sign => exact (hu trivial).elim
  | _ => rfl

theorem mul (format : Format) (hu : IsZero u) (hv : v.isFinite = true) :
    IsZero (UnpackedFloat.mul format u v) := by
  obtain ⟨s, rfl⟩ := hu.exists_sign
  cases v with
  | zero sign => exact trivial
  | finite sign mantissa exponent hpos => exact trivial
  | _ => cases hv

theorem mul_left (format : Format) (hu : u.isFinite = true) (hv : IsZero v) :
    IsZero (UnpackedFloat.mul format u v) := by
  obtain ⟨t, rfl⟩ := hv.exists_sign
  cases u with
  | zero sign => exact trivial
  | finite sign mantissa exponent hpos => exact trivial
  | _ => cases hu

theorem mul_of_not_finite (format : Format) (hu : IsZero u) (hv : v.isFinite = false) :
    UnpackedFloat.mul format u v = .notANumber := by
  obtain ⟨s, rfl⟩ := hu.exists_sign
  cases v with
  | zero sign => cases hv
  | finite sign mantissa exponent hpos => cases hv
  | _ => rfl

end IsZero

/-! ## What is not a number -/

theorem add_notANumber (format : Format) (u : UnpackedFloat) :
    UnpackedFloat.add format u .notANumber = .notANumber := by
  cases u <;> rfl

theorem lt_notANumber (u : UnpackedFloat) : u.lt .notANumber = false := by
  cases u <;> rfl

end Stationary
