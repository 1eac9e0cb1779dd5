import Stationary.Proofs.RoundedOperations
import Stationary.Flushed

/-!
# Rounded arithmetic

In a `RoundedArithmetic` every number has an extended real value or none, operations compute with
the values and round the result, and comparisons are those of the values; a number
without a value compares false. Of the rounding only this is known : it is monotone,
and it leaves the values of numbers alone. Binary64 and binary32 are instances, also
where subnormal numbers are flushed, since flushing is monotone too.

So bounds go through operations. `AtLeast` is a lower bound of the value, if there is one
(`atLeast_add`, `nonneg_mul`, `nonneg_sqrt`), and with it a norm is never negative
(`nonneg_norm`). `Dominated` says that a second number is not below a first one, and that it has a
value if the first one does; sums and products of numbers that are not negative keep this
(`Dominated.add`, `Dominated.mul`).
-/

namespace Stationary

open Float.Model (Format UnpackedFloat)

/-- Numbers with extended real values, and operations that round the exact result. -/
class RoundedArithmetic (α : Type) [Scalar α] where
  /-- The value of a number, if it has one. -/
  value : α → Option EReal
  /-- The value that the arithmetic has for an exact one. -/
  roundValue : EReal → EReal
  roundValue_mono : Monotone roundValue
  roundValue_value (x : α) : (value x).map roundValue = value x
  value_zero : value (0 : α) = some 0
  value_neg (x : α) : value (-x) = (value x).map (- ·)
  value_abs (x : α) : value (Scalar.abs x) = (value x).map fun a => max a (-a)
  value_add (x y : α) : value (x + y) = (sum? (value x) (value y)).map roundValue
  value_sub (x y : α) : value (x - y) = (sum? (value x) ((value y).map (- ·))).map roundValue
  value_mul (x y : α) : value (x * y) = (product? (value x) (value y)).map roundValue
  value_sqrt (x : α) : value (Scalar.sqrt x) = (root? (value x)).map roundValue
  lt_iff (x y : α) : Scalar.lt x y = true ↔
    ∃ a b, value x = some a ∧ value y = some b ∧ a < b
  le_iff (x y : α) : Scalar.le x y = true ↔
    ∃ a b, value x = some a ∧ value y = some b ∧ a ≤ b
  isFinite_iff (x : α) : Scalar.isFinite x = true ↔ ∃ a : ℝ, value x = some (a : EReal)

namespace RoundedArithmetic

variable {α : Type} [Scalar α] [RoundedArithmetic α] {x y x' y' : α} {p q : EReal} {n : Nat}

theorem roundValue_of_value {a : EReal} (h : value x = some a) : roundValue α a = a := by
  have hround := roundValue_value x
  rw [h, Option.map_some] at hround
  exact Option.some.inj hround

theorem roundValue_zero : roundValue α 0 = 0 :=
  roundValue_of_value value_zero

theorem roundValue_nonneg {a : EReal} (h : 0 ≤ a) : 0 ≤ roundValue α a :=
  (roundValue_zero (α := α)).symm.trans_le (roundValue_mono h)

/-! ## Lower bounds -/

/-- The value, if there is one, is at least `q`. -/
def AtLeast (q : EReal) (x : α) : Prop :=
  ∀ a, value x = some a → q ≤ a

theorem AtLeast.mono (h : AtLeast q x) (hp : p ≤ q) : AtLeast p x :=
  fun a ha => hp.trans (h a ha)

theorem not_lt_of_atLeast (h : AtLeast q x) (hy : ∀ b, value y = some b → b ≤ q) :
    Scalar.lt x y = false := by
  rw [Bool.eq_false_iff]
  intro hlt
  obtain ⟨a, b, ha, hb, hab⟩ := (lt_iff x y).1 hlt
  exact absurd (hab.trans_le (hy b hb)) (h a ha).not_gt

theorem exists_sum {s t : Option EReal} {c : EReal} (h : sum? s t = some c) :
    ∃ a b, s = some a ∧ t = some b ∧ ¬(a = ⊤ ∧ b = ⊥ ∨ a = ⊥ ∧ b = ⊤) ∧ a + b = c := by
  unfold sum? at h
  split at h
  · split at h
    · cases h
    · rename_i a b hab
      exact ⟨a, b, rfl, rfl, hab, Option.some.inj h⟩
  · cases h

theorem exists_product {s t : Option EReal} {c : EReal} (h : product? s t = some c) :
    ∃ a b, s = some a ∧ t = some b ∧
      ¬(a = 0 ∧ (b = ⊤ ∨ b = ⊥) ∨ b = 0 ∧ (a = ⊤ ∨ a = ⊥)) ∧ a * b = c := by
  unfold product? at h
  split at h
  · split at h
    · cases h
    · rename_i a b hab
      exact ⟨a, b, rfl, rfl, hab, Option.some.inj h⟩
  · cases h

/-- A bound of the exact sum that the arithmetic has is a bound of the sum. -/
theorem atLeast_add (hx : AtLeast p x) (hy : AtLeast q y) :
    AtLeast (roundValue α (p + q)) (x + y) := by
  intro c hc
  rw [value_add, Option.map_eq_some_iff] at hc
  obtain ⟨_, hsum, rfl⟩ := hc
  obtain ⟨a, b, ha, hb, -, rfl⟩ := exists_sum hsum
  exact roundValue_mono (add_le_add (hx a ha) (hy b hb))

theorem nonneg_mul (hx : AtLeast 0 x) (hy : AtLeast 0 y) : AtLeast 0 (x * y) := by
  intro c hc
  rw [value_mul, Option.map_eq_some_iff] at hc
  obtain ⟨_, hproduct, rfl⟩ := hc
  obtain ⟨a, b, ha, hb, -, rfl⟩ := exists_product hproduct
  exact roundValue_nonneg (mul_nonneg (hx a ha) (hy b hb))

/-- A root is not negative. -/
theorem nonneg_sqrt (x : α) : AtLeast 0 (Scalar.sqrt x) := by
  intro c hc
  rw [value_sqrt, Option.map_eq_some_iff] at hc
  obtain ⟨a, ha, rfl⟩ := hc
  refine roundValue_nonneg ?_
  unfold root? at ha
  split at ha
  · split at ha
    · cases ha
    · split at ha
      · obtain rfl := Option.some.inj ha
        exact le_top
      · obtain rfl := Option.some.inj ha
        exact EReal.coe_nonneg.2 (Real.sqrt_nonneg _)
  · cases ha

theorem nonneg_abs (x : α) : AtLeast 0 (Scalar.abs x) := by
  intro c hc
  rw [value_abs, Option.map_eq_some_iff] at hc
  obtain ⟨a, -, rfl⟩ := hc
  rcases le_total 0 a with h | h
  · exact h.trans (le_max_left a (-a))
  · exact (EReal.neg_nonneg.2 h).trans (le_max_right a (-a))

theorem nonneg_norm (v : Vector α n) : AtLeast 0 (Vec.norm v) := by
  unfold Vec.norm
  split
  · exact nonneg_abs _
  · exact nonneg_sqrt _

/-! ## Numbers that are not below others -/

/-- The second number is not below the first one, and has a value if the first one does. -/
def Dominated (x y : α) : Prop :=
  ∀ a, value x = some a → ∃ b, value y = some b ∧ a ≤ b

theorem lt_of_dominated {z : α} (h : Dominated x y) (hz : Scalar.lt z x = true) :
    Scalar.lt z y = true := by
  obtain ⟨c, a, hc, ha, hca⟩ := (lt_iff z x).1 hz
  obtain ⟨b, hb, hab⟩ := h a ha
  exact (lt_iff z y).2 ⟨c, b, hc, hb, hca.trans_le hab⟩

namespace Dominated

/-- Sums of larger numbers are larger. Infinities of different signs do not meet. -/
theorem add (hx : Dominated x x') (hy : Dominated y y') (hx₀ : AtLeast 0 x)
    (hy₀ : AtLeast 0 y) : Dominated (x + y) (x' + y') := by
  intro c hc
  rw [value_add, Option.map_eq_some_iff] at hc
  obtain ⟨_, hsum, rfl⟩ := hc
  obtain ⟨a, b, ha, hb, -, rfl⟩ := exists_sum hsum
  obtain ⟨a', ha', haa⟩ := hx a ha
  obtain ⟨b', hb', hbb⟩ := hy b hb
  have ha₀ : ⊥ < a' := EReal.bot_lt_zero.trans_le ((hx₀ a ha).trans haa)
  have hb₀ : ⊥ < b' := EReal.bot_lt_zero.trans_le ((hy₀ b hb).trans hbb)
  refine ⟨roundValue α (a' + b'), ?_, roundValue_mono (add_le_add haa hbb)⟩
  rw [value_add, ha', hb', sum?, if_neg]
  · rfl
  · rintro (⟨-, h⟩ | ⟨h, -⟩)
    · exact hb₀.ne' h
    · exact ha₀.ne' h

/-- Multiples with larger factors are larger. The larger factor is finite, so that the multiple of
zero has a value. -/
theorem mul (hx : Dominated x x') (hx₀ : AtLeast 0 x) (hfin : Scalar.isFinite x' = true)
    (hy₀ : AtLeast 0 y) : Dominated (x * y) (x' * y) := by
  intro c hc
  rw [value_mul, Option.map_eq_some_iff] at hc
  obtain ⟨_, hproduct, rfl⟩ := hc
  obtain ⟨a, b, ha, hb, hab, rfl⟩ := exists_product hproduct
  obtain ⟨a', ha', haa⟩ := hx a ha
  obtain ⟨r, hr⟩ := (isFinite_iff x').1 hfin
  obtain rfl : a' = r := Option.some.inj (ha'.symm.trans hr)
  have ha₀ := hx₀ a ha
  have hb₀ := hy₀ b hb
  refine ⟨roundValue α (r * b), ?_, roundValue_mono (mul_le_mul_of_nonneg_right haa hb₀)⟩
  rw [value_mul, hr, hb, product?, if_neg]
  · rfl
  · rintro (⟨hzero, hinf⟩ | ⟨-, h | h⟩)
    · -- the smaller factor is zero too
      rw [hzero] at haa
      exact hab (Or.inl ⟨le_antisymm haa ha₀, hinf⟩)
    · exact EReal.coe_ne_top r h
    · exact EReal.coe_ne_bot r h

end Dominated

end RoundedArithmetic

end Stationary
