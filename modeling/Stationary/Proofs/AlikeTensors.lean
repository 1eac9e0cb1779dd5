import Mathlib
import Stationary.JacobianError
import Stationary.Kkt.Data

/-!
# Tensors of one shape

Tensors of equal shapes are combined entry by entry : their shapes agree, and along its own shape a
tensor is not repeated (`combined_of_shape_eq`). The components of a vector are single numbers
(`component_ofVector`).
-/

namespace Stationary

namespace Shape

theorem combineReversed?_self (s : List Nat) : combineReversed? s s = some s := by
  induction s with
  | nil => rfl
  | cons d s ih => simp [combineReversed?, ih]

theorem combine?_self (s : Shape) : combine? s s = some s := by
  simp [combine?, combineReversed?_self]

theorem size_reverse (s : Shape) : Shape.size s.reverse = s.size :=
  List.prod_reverse s

/-- In a tensor of the same axes an entry is at its own place. -/
theorem sourceReversed_self {s : List Nat} {k : Nat} (hk : k < Shape.size s) :
    sourceReversed s s k = k := by
  induction s generalizing k with
  | nil => exact (Nat.lt_one_iff.1 hk).symm
  | cons d s ih =>
    have hinner : k / d < Shape.size s := Nat.div_lt_of_lt_mul hk
    have hlast : (if d = 1 then 0 else k % d) = k % d := by
      split
      · rename_i h
        rw [h, Nat.mod_one]
      · rfl
    rw [sourceReversed, ih hinner, hlast, Nat.mod_add_div]

end Shape

namespace Tensor

variable {α β γ : Type} {n : Nat}

theorem ext_entries {s t : Tensor α} (hshape : s.shape = t.shape)
    (hentries : s.entries = t.entries) : s = t := by
  cases s
  cases t
  cases hshape
  cases hentries
  rfl

/-- A tensor repeated along its own shape stays as it is. -/
theorem stretch_self [Inhabited α] (t : Tensor α) : t.stretch t.shape = t := by
  refine ext_entries rfl (Array.ext (by simp [stretch, t.size_eq]) fun k hk hk' => ?_)
  have hsize : k < Shape.size t.shape.reverse := by
    rw [Shape.size_reverse, ← t.size_eq]
    exact hk'
  simp [stretch, Shape.sourceReversed_self hsize, hk', Array.getD]

/-- Tensors of one shape are combined entry by entry. -/
theorem zip?_of_shape_eq [Inhabited α] [Inhabited β] (f : α → β → γ) {s : Tensor α} {t : Tensor β}
    (h : s.shape = t.shape) : s.zip? f t = some
      ⟨s.shape, Array.zipWith f s.entries t.entries, by simp [s.size_eq, t.size_eq, h]⟩ := by
  have hshape : s.shape.combine? t.shape = some s.shape := by rw [← h, Shape.combine?_self]
  have ht : t.stretch s.shape = t := by rw [h, stretch_self]
  unfold zip?
  rw [hshape, Option.map_some]
  refine congrArg some (ext_entries rfl ?_)
  simp only [ht, stretch_self]
  refine Array.ext (by simp [s.size_eq, t.size_eq, h]) fun k hk hk' => ?_
  obtain ⟨hks, hkt⟩ : k < s.entries.size ∧ k < t.entries.size := by simpa using hk'
  simp [Array.getD, hks, hkt]

end Tensor

section Combined

variable {α β γ : Type} {n : Nat} [Inhabited α] [Inhabited β]

theorem combined_of_shape_eq (f : α → β → γ) {s : Tensor α} {t : Tensor β}
    (h : s.shape = t.shape) : combined f s t = .ok
      ⟨s.shape, Array.zipWith f s.entries t.entries, by simp [s.size_eq, t.size_eq, h]⟩ := by
  rw [combined, Tensor.zip?_of_shape_eq f h]
  rfl

theorem combined_ofVector (f : α → β → γ) (u : Vector α n) (v : Vector β n) :
    combined f (.ofVector u) (.ofVector v) = .ok (.ofVector (Vector.zipWith f u v)) :=
  combined_of_shape_eq f rfl

theorem combined_scalar (f : α → β → γ) (x : α) (y : β) :
    combined f (.scalar x) (.scalar y) = .ok (.scalar (f x y)) :=
  (combined_of_shape_eq f rfl).trans
    (congrArg Except.ok (Tensor.ext_entries rfl (by simp [Tensor.scalar])))

end Combined

theorem component_ofVector {α : Type} {n i : Nat} (v : Vector α n) (hi : i < n) :
    component (.ofVector v) i = .ok (.scalar v[i]) := by
  obtain ⟨d, rfl⟩ := Nat.exists_eq_add_of_lt (Nat.zero_lt_of_lt hi)
  have hlast : min i (0 + d) = i := Nat.min_eq_left (Nat.le_of_lt_succ hi)
  have hentries : v.toArray.extract i (i + 1) = #[v[i]] := by
    refine Array.ext (by simp; omega) fun k hk hk' => ?_
    obtain rfl : k = 0 := by simpa using hk'
    simp
  have hpart : (Tensor.ofVector v).part? i = some (.scalar v[i]) := by
    show Tensor.ofArray? [] (v.toArray.extract (min i (0 + d) * 1) (min i (0 + d) * 1 + 1)) = _
    rw [hlast, Nat.mul_one, hentries]
    rfl
  rw [component, hpart]
  rfl

/-- A slice of a vector is the vector of its entries there. -/
theorem slice?_ofVector {α : Type} {n a b : Nat} (v : Vector α n) (hab : a ≤ b) (hb : b ≤ n) :
    (Tensor.ofVector v).slice? a b = some (.ofVector (v.extract a b)) := by
  have hfirst : min a n = a := Nat.min_eq_left (hab.trans hb)
  have hlast : max a (min b n) = b := by rw [Nat.min_eq_left hb, Nat.max_eq_right hab]
  have hcount : b - a = min b n - a := by rw [Nat.min_eq_left hb]
  show Tensor.ofArray? [max (min a n) (min b n) - min a n]
    (v.toArray.extract (min a n * 1) (max (min a n) (min b n) * 1)) = _
  rw [hfirst, hlast, Nat.mul_one, Nat.mul_one, hcount]
  exact dif_pos (Tensor.ofVector (v.extract a b)).size_eq

/-- Single numbers are stacked to a vector. -/
theorem stackAlike_scalars {α : Type} [Elementary α] (h : UniformKind α) (x y z : α) :
    Formula.stackAlike [.scalar x, .scalar y, .scalar z] = .ok (.ofVector #v[x, y, z]) := by
  unfold Formula.stackAlike
  simp only [Formula.likened_eq_ok h]
  rfl

end Stationary
