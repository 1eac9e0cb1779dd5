import Stationary.Proofs.BinaryFormat

/-!
# Arithmetic without subnormal numbers, in a binary format

To flush a number leaves all but subnormal numbers as they are, and gives a zero otherwise
(`flush_eq_or`); flushing again changes nothing (`flush_flush`). So both kinds of numbers of
a binary format keep their properties where arithmetic flushes : a norm that sees an entry
which is not finite is below nothing (`Flushed.isTop_norm`), and a number is
below a sum with a zero multiple as it is without, if the multiple is of a finite number
(`Flushed.lt_add_zero_mul`).
-/

namespace Stationary

open BinaryFormat
open Float.Model (UnpackedFloat)

variable {α : Type} [Scalar α] [Subnormal α] [BinaryFormat α] {x y : α}

/-! ## Flushing -/

theorem isFinite_of_isSubnormal (h : isSubnormal x = true) : Scalar.isFinite x = true := by
  refine Bool.of_not_eq_false fun hx => ?_
  rw [isFinite_eq_unpack] at hx
  have habs : IsTop (unpack (Scalar.abs x)) := by
    rw [abs_eq_pack]
    exact (IsTop.abs_of_not_finite hx).unpack_pack α
  unfold isSubnormal at h
  rw [lt_eq_unpack, habs.lt_eq_false] at h
  exact Bool.false_ne_true h

theorem flush_of_not_finite (h : Scalar.isFinite x = false) : flush x = x := by
  refine if_neg fun hs => ?_
  rw [isFinite_of_isSubnormal hs] at h
  cases h

/-- Zeros are not changed by flushing. -/
theorem flush_of_isZero (h : IsZero (unpack x)) : flush x = x := by
  unfold flush
  split
  · obtain ⟨sign, hsign⟩ := h.exists_sign
    have hmul : UnpackedFloat.mul (format α) (.zero sign) (.zero .positive) = .zero sign := by
      cases sign <;> rfl
    rw [mul_eq_pack, unpack_zero, hsign, hmul, ← hsign, pack_unpack]
  · rfl

/-- Flushing changes subnormal numbers only, and gives a zero for them. -/
theorem flush_eq_or (x : α) : flush x = x ∨ IsZero (unpack (flush x)) := by
  unfold flush
  split
  · rename_i h
    refine Or.inr ?_
    have hfin := isFinite_of_isSubnormal h
    rw [isFinite_eq_unpack] at hfin
    rw [mul_eq_pack, unpack_zero]
    exact (IsZero.mul_left _ hfin (v := .zero .positive) trivial).unpack_pack α
  · exact Or.inl rfl

theorem flush_flush (x : α) : flush (flush x) = flush x := by
  rcases flush_eq_or x with h | h
  · rw [h, h]
  · exact flush_of_isZero h

theorem isFinite_flush (x : α) : Scalar.isFinite (flush x) = Scalar.isFinite x := by
  cases h : Scalar.isFinite x with
  | false => rw [flush_of_not_finite h, h]
  | true =>
    rcases flush_eq_or x with hx | hx
    · rw [hx, h]
    · obtain ⟨sign, hsign⟩ := hx.exists_sign
      rw [isFinite_eq_unpack, hsign]
      rfl

theorem unpack_flush_of_notANumber {z : α} (h : unpack z = .notANumber) :
    unpack (flush z) = .notANumber := by
  have hz : Scalar.isFinite z = false := by
    rw [isFinite_eq_unpack, h]
    rfl
  rw [flush_of_not_finite hz, h]

/-! ## Numbers that nothing is above -/

namespace Flushed

variable {n : Nat}

/-- Nothing is above the number : it is not a number, or positive infinity. -/
def IsTop (x : Flushed α) : Prop :=
  Stationary.IsTop (unpack x.value)

namespace IsTop

variable {x y : Flushed α}

theorem flush_value (h : IsTop x) : flush x.value = x.value := by
  refine flush_of_not_finite ?_
  rw [isFinite_eq_unpack]
  exact Stationary.IsTop.isFinite_eq_false h

theorem of_flush {z : α} (h : Stationary.IsTop (unpack z)) :
    IsTop (⟨flush z⟩ : Flushed α) := by
  have hz : flush z = z := flush_value (x := ⟨z⟩) h
  unfold IsTop
  rw [hz]
  exact h

theorem lt_eq_false (h : IsTop x) (t : Flushed α) : Scalar.lt x t = false := by
  show Scalar.lt (flush x.value) (flush t.value) = false
  rw [h.flush_value, lt_eq_unpack]
  exact Stationary.IsTop.lt_eq_false h _

theorem add_left (h : IsTop x) (y : Flushed α) : IsTop (x + y) := by
  refine of_flush (z := flush x.value + flush y.value) ?_
  rw [h.flush_value, add_eq_pack]
  exact (Stationary.IsTop.add_left _ h _).unpack_pack α

theorem add_right (x : Flushed α) (h : IsTop y) : IsTop (x + y) := by
  refine of_flush (z := flush x.value + flush y.value) ?_
  rw [h.flush_value, add_eq_pack]
  exact (Stationary.IsTop.add_right _ _ h).unpack_pack α

theorem mul_self (h : Scalar.isFinite x = false) : IsTop (x * x) := by
  refine of_flush (z := flush x.value * flush x.value) ?_
  have hx : flush x.value = x.value := flush_of_not_finite h
  have hu : (unpack x.value).isFinite = false := (isFinite_eq_unpack x.value).symm.trans h
  rw [hx, mul_eq_pack]
  exact (Stationary.IsTop.mul_self _ hu).unpack_pack α

theorem abs (h : Scalar.isFinite x = false) : IsTop (Scalar.abs x) := by
  have hu : (unpack x.value).isFinite = false := (isFinite_eq_unpack x.value).symm.trans h
  show Stationary.IsTop (unpack (Scalar.abs x.value))
  rw [abs_eq_pack]
  exact (Stationary.IsTop.abs_of_not_finite hu).unpack_pack α

theorem sqrt (h : IsTop x) : IsTop (Scalar.sqrt x) := by
  refine of_flush ?_
  rw [h.flush_value, sqrt_eq_pack]
  exact (Stationary.IsTop.sqrt _ h).unpack_pack α

/-- One such number among the terms is enough for a sum. -/
theorem foldl {x : Flushed α} {xs : List (Flushed α)} (h : IsTop x ∨ ∃ y ∈ xs, IsTop y) :
    IsTop (xs.foldl (· + ·) x) := by
  induction xs generalizing x with
  | nil =>
    rcases h with h | ⟨y, hy, -⟩
    · exact h
    · cases hy
  | cons z zs ih =>
    refine ih ?_
    rcases h with h | ⟨y, hy, h⟩
    · exact Or.inl (h.add_left z)
    · rcases List.mem_cons.1 hy with rfl | hy
      · exact Or.inl (h.add_right x)
      · exact Or.inr ⟨y, hy, h⟩

theorem sum {v : Vector (Flushed α) n} (h : ∃ y ∈ v.toList, IsTop y) : IsTop (Vec.sum v) := by
  obtain ⟨y, hy, h⟩ := h
  unfold Vec.sum
  split
  · rename_i hnil
    rw [hnil] at hy
    cases hy
  · rename_i x xs hcons
    rw [hcons] at hy
    refine foldl ?_
    rcases List.mem_cons.1 hy with rfl | hy
    · exact Or.inl h
    · exact Or.inr ⟨y, hy, h⟩

end IsTop

/-- The norm of a vector with an entry that is not finite is above everything. -/
theorem isTop_norm {v : Vector (Flushed α) n} (h : Vec.allFinite v = false) :
    IsTop (Vec.norm v) := by
  obtain ⟨i, hi⟩ := Vec.allFinite_eq_false_iff.1 h
  unfold Vec.norm
  split
  · rename_i hn
    subst hn
    obtain rfl : i = 0 := Subsingleton.elim _ _
    exact IsTop.abs hi
  · refine IsTop.sqrt (IsTop.sum ⟨v.get i * v.get i, ?_, IsTop.mul_self hi⟩)
    refine Vector.mem_toList_iff.2 (Vector.mem_iff_getElem.2 ⟨i, i.isLt, ?_⟩)
    rw [Vector.getElem_zipWith]
    rfl

/-- So a norm below anything is that of a vector of finite numbers. -/
theorem allFinite_of_lt_norm {v : Vector (Flushed α) n} {t : Flushed α}
    (h : Scalar.lt (Vec.norm v) t = true) : Vec.allFinite v = true := by
  refine Bool.of_not_eq_false fun hv => ?_
  rw [(isTop_norm hv).lt_eq_false] at h
  cases h

/-! ## Multiples by zero -/

/-- The number is a zero, of any sign. -/
def IsZero (x : Flushed α) : Prop :=
  Stationary.IsZero (unpack x.value)

theorem isZero_of_eq {x : Flushed α} (h : x = 0 ∨ x = -0) : IsZero x := by
  have hzero : Stationary.IsZero (unpack (0 : α)) := by
    rw [unpack_zero]
    exact trivial
  rcases h with rfl | rfl
  · exact hzero
  · show Stationary.IsZero (unpack (-(0 : α)))
    rw [neg_eq_pack, unpack_zero]
    exact Stationary.IsZero.unpack_pack (u := .zero .negative) α trivial

variable {r : Flushed α}

/-- The product of a zero and a finite number is a zero. -/
theorem isZero_mul (hr : IsZero r) {m : Flushed α} (hm : Scalar.isFinite m = true) :
    IsZero (r * m) := by
  have hz : Stationary.IsZero (unpack (flush r.value * flush m.value)) := by
    have hm' : (unpack (flush m.value)).isFinite = true := by
      rw [← isFinite_eq_unpack, isFinite_flush]
      exact hm
    rw [flush_of_isZero hr, mul_eq_pack]
    exact (Stationary.IsZero.mul _ hr hm').unpack_pack α
  show Stationary.IsZero (unpack (flush (flush r.value * flush m.value)))
  rw [flush_of_isZero hz]
  exact hz

/-- The product of a zero and a number that is not finite is not a number. -/
theorem unpack_mul (hr : IsZero r) {m : Flushed α} (hm : Scalar.isFinite m = false) :
    unpack (r * m).value = .notANumber := by
  have hm' : (unpack m.value).isFinite = false := (isFinite_eq_unpack m.value).symm.trans hm
  have hm'' : flush m.value = m.value := flush_of_not_finite hm
  refine unpack_flush_of_notANumber (z := flush r.value * flush m.value) ?_
  rw [flush_of_isZero hr, hm'', mul_eq_pack,
    Stationary.IsZero.mul_of_not_finite _ hr hm', unpack_pack_notANumber]

/-- A number is below a sum with a zero as it is without. -/
theorem lt_add_zero {z : Flushed α} (hz : IsZero z) (x a : Flushed α) :
    Scalar.lt x (a + z) = Scalar.lt x a := by
  show Scalar.lt (flush x.value) (flush (flush (flush a.value + flush z.value))) =
    Scalar.lt (flush x.value) (flush a.value)
  rw [flush_flush, flush_of_isZero hz]
  by_cases ha : Stationary.IsZero (unpack (flush a.value))
  · have hsum : Stationary.IsZero (unpack (flush a.value + z.value)) := by
      rw [add_eq_pack]
      exact (Stationary.IsZero.add _ ha hz).unpack_pack α
    rw [flush_of_isZero hsum, lt_eq_unpack, lt_eq_unpack]
    exact hsum.lt_congr ha _
  · have hsum : flush a.value + z.value = flush a.value := by
      rw [add_eq_pack, Stationary.IsZero.add_eq_left _ ha hz, pack_unpack]
    rw [hsum, flush_flush]

/-- Nothing is below a sum with what is not a number. -/
theorem lt_add_notANumber {z : Flushed α} (hz : unpack z.value = .notANumber)
    (x a : Flushed α) : Scalar.lt x (a + z) = false := by
  have hsum : unpack (a + z).value = .notANumber := by
    refine unpack_flush_of_notANumber (z := flush a.value + flush z.value) ?_
    rw [add_eq_pack, unpack_flush_of_notANumber hz, add_notANumber,
      unpack_pack_notANumber]
  show Scalar.lt (flush x.value) (flush (a + z).value) = false
  rw [lt_eq_unpack, unpack_flush_of_notANumber hsum]
  exact lt_notANumber _

/-- A number is below a sum with a multiple by zero as it is without, unless the multiple is
of what is not finite; then it is not below. -/
theorem lt_add_zero_mul (hr : IsZero r) (x a m : Flushed α) :
    Scalar.lt x (a + r * m) = (Scalar.isFinite m && Scalar.lt x a) := by
  cases hm : Scalar.isFinite m with
  | true => rw [lt_add_zero (isZero_mul hr hm), Bool.true_and]
  | false => rw [lt_add_notANumber (unpack_mul hr hm), Bool.false_and]

end Flushed

end Stationary
