import Stationary.Proofs.AlikeTensors
import Stationary.Proofs.Misfits
import Stationary.Proofs.Projections

/-!
# Masks of any length

`project` takes a mask of any length, and decides by the lengths whether there is a result
(`exists_project_iff`) and which error it is otherwise (`project_eq_error_iff`). As arrays are
combined, mask and vector are repeated along one shape before anything is chosen, and the result
must have the shape of the vector. Both come to the same (`project_eq_projectRepeated`).

A mask that marks nothing is not looked at, so it may have any length. A single mark is repeated
along every vector, an empty one included (`Tensor.zip?_single`). Beside a vector of length one it
is the vector that is repeated, along the mask, and the result is refused for its shape
(`Tensor.shape_of_zip?_one`). Other lengths do not fit (`Tensor.zip?_vectors_eq_none`). -/

set_option linter.unusedSectionVars false

namespace Stationary

/-! ## Masks of any length -/

section Lengths

variable {α : Type} {n : Nat} [Scalar α] {y : Vector α n} {mask : List Bool}

theorem any_id_iff : mask.any id = true ↔ true ∈ mask := by
  simp

/-- A mask that marks nothing is not looked at. -/
theorem project_of_not_mem (h : true ∉ mask) : project y mask = .ok y := by
  have hany : mask.any id = false := Bool.eq_false_iff.2 (mt any_id_iff.1 h)
  rw [project, hany, Bool.not_false, if_pos rfl]

/-- A single mark is one for every component. -/
theorem project_single (y : Vector α n) :
    project y [true] = .ok (clamp (Vector.replicate n true) y) := by
  by_cases hn : [true].length = n
  · subst hn
    rfl
  · rw [project, any_id_iff.2 (List.mem_singleton_self true), Bool.not_true,
      if_neg Bool.false_ne_true, dif_neg hn]
    rfl

/-- A longer mask that marks something is refused, if it has another length than the vector. -/
theorem project_of_length_ne (h : true ∈ mask) (hn : mask.length ≠ n) (hone : mask.length ≠ 1) :
    project y mask = .error (if n = 1 then .resized else .incompatible) := by
  rw [project, any_id_iff.2 h, Bool.not_true, if_neg Bool.false_ne_true, dif_neg hn, if_neg hone]
  split <;> rfl

/-- A mask has a result if it marks nothing, is as long as the vector or has length one. -/
theorem exists_project_iff : (∃ p, project y mask = .ok p) ↔
    true ∉ mask ∨ mask.length = n ∨ mask.length = 1 := by
  constructor
  · rintro ⟨p, hp⟩
    by_contra hnot
    obtain ⟨hmem, hn, hone⟩ : true ∈ mask ∧ mask.length ≠ n ∧ mask.length ≠ 1 := by
      simpa only [not_or, not_not] using hnot
    rw [project_of_length_ne hmem hn hone] at hp
    cases hp
  · rintro (h | h | h)
    · exact ⟨y, project_of_not_mem h⟩
    · obtain ⟨marks, -, hproject⟩ := exists_clamp_of_length h
      exact ⟨_, hproject y⟩
    · obtain ⟨b, rfl⟩ := List.length_eq_one_iff.1 h
      cases b with
      | true => exact ⟨_, project_single y⟩
      | false => exact ⟨y, project_of_not_mem (by decide)⟩

/-- The other masks are refused, and for which reason depends on the length of the vector. -/
theorem project_eq_error_iff {e : ProjectionError} : project y mask = .error e ↔
    true ∈ mask ∧ mask.length ≠ n ∧ mask.length ≠ 1 ∧
      e = if n = 1 then .resized else .incompatible := by
  constructor
  · intro h
    have hnot : ¬∃ p, project y mask = .ok p := by
      rintro ⟨p, hp⟩
      rw [h] at hp
      cases hp
    obtain ⟨hmem, hn, hone⟩ : true ∈ mask ∧ mask.length ≠ n ∧ mask.length ≠ 1 := by
      simpa only [exists_project_iff, not_or, not_not] using hnot
    rw [project_of_length_ne hmem hn hone] at h
    exact ⟨hmem, hn, hone, (Except.error.inj h).symm⟩
  · rintro ⟨hmem, hn, hone, rfl⟩
    exact project_of_length_ne hmem hn hone

end Lengths

/-! ## Single numbers repeated along a shape -/

namespace Shape

/-- Two vectors are repeated along the longer one, if one of them is a single number or both are
of the same length. -/
theorem combine?_vectors (m n : Nat) : combine? [m] [n] =
    if m = n ∨ n = 1 then some [m] else if m = 1 then some [n] else none := by
  unfold combine?
  simp only [List.reverse_singleton, combineReversed?, Bool.or_eq_true, decide_eq_true_eq]
  split
  · rfl
  · split <;> rfl

/-- All entries come from the only one. -/
theorem sourceReversed_of_ones {s : List Nat} (h : ∀ d ∈ s, d = 1) (t : List Nat) (k : Nat) :
    sourceReversed s t k = 0 := by
  induction s generalizing t k with
  | nil => rfl
  | cons d s ih =>
    obtain ⟨rfl, hs⟩ := List.forall_mem_cons.1 h
    cases t with
    | nil => rfl
    | cons e t => rw [sourceReversed, if_pos rfl, ih hs, Nat.mul_zero]

end Shape

namespace Tensor

variable {α β γ : Type} {m n : Nat} [Inhabited α] [Inhabited β]

theorem getD_ofVector (v : Vector α n) {k : Nat} (hk : k < n) :
    (ofVector v).entries.getD k default = v[k] := by
  simp [ofVector, Array.getD, hk]

theorem getD_stretch_self (v : Vector α n) {k : Nat} (hk : k < n) :
    ((ofVector v).stretch [n]).entries.getD k default = v[k] := by
  have hself : (ofVector v).stretch [n] = ofVector v := stretch_self _
  rw [hself, getD_ofVector v hk]

/-- A single entry is repeated at every place. -/
theorem getD_stretch_of_ones {t : Tensor α} (h : ∀ d ∈ t.shape, d = 1) {k : Nat} (hk : k < n) :
    (t.stretch [n]).entries.getD k default = t.entries.getD 0 default := by
  have hones : ∀ d ∈ t.shape.reverse, d = 1 := fun d hd => h d (List.mem_reverse.1 hd)
  have hk' : k < Shape.size [n] := by simpa [Shape.size] using hk
  simp [stretch, hk', Shape.sourceReversed_of_ones hones, Array.getD]

/-- Tensors whose common shape is that of a vector are combined to the vector of their repeated
entries. -/
theorem zip?_eq_ofVector {f : α → β → γ} {s : Tensor α} {t : Tensor β} {w : Vector γ n}
    (hshape : s.shape.combine? t.shape = some [n])
    (h : ∀ k (hk : k < n), f ((s.stretch [n]).entries.getD k default)
      ((t.stretch [n]).entries.getD k default) = w[k]) : s.zip? f t = some (ofVector w) := by
  have hsize : Shape.size [n] = n := by simp [Shape.size]
  unfold zip?
  rw [hshape, Option.map_some]
  refine congrArg some (ext_entries rfl (Array.ext (by simp [ofVector, hsize]) fun k hk hk' => ?_))
  have hkn : k < n := by simpa [hsize] using hk
  rw [Array.getElem_ofFn]
  exact h k hkn

/-- A vector combined with a single number. -/
theorem zip?_scalar (f : α → β → γ) (v : Vector α n) (x : β) :
    (ofVector v).zip? f (scalar x) = some (ofVector (v.map (f · x))) := by
  refine zip?_eq_ofVector rfl fun k hk => ?_
  have hones : ∀ d ∈ (scalar x).shape, d = 1 := by simp [scalar]
  rw [getD_stretch_self v hk, getD_stretch_of_ones hones hk, Vector.getElem_map]
  rfl

/-- Two vectors of one length are combined entry by entry. -/
theorem zip?_vectors (f : α → β → γ) (u : Vector α n) (v : Vector β n) :
    (ofVector u).zip? f (ofVector v) = some (ofVector (Vector.zipWith f u v)) := by
  refine zip?_eq_ofVector (Shape.combine?_self [n]) fun k hk => ?_
  rw [getD_stretch_self u hk, getD_stretch_self v hk, Vector.getElem_zipWith]

/-- A vector of one entry is repeated along every other vector. -/
theorem zip?_single (f : α → β → γ) (x : α) (v : Vector β n) :
    (ofVector #v[x]).zip? f (ofVector v) = some (ofVector (v.map (f x))) := by
  have hshape : Shape.combine? [1] [n] = some [n] := by
    rw [Shape.combine?_vectors]
    split
    · rename_i h
      rcases h with h | h <;> rw [h]
    · rw [if_pos rfl]
  refine zip?_eq_ofVector hshape fun k hk => ?_
  have hones : ∀ d ∈ (ofVector #v[x]).shape, d = 1 := by simp [ofVector]
  rw [getD_stretch_of_ones hones hk, getD_stretch_self v hk, Vector.getElem_map]
  rfl

/-- Vectors that have no common shape are not combined. -/
theorem zip?_vectors_eq_none (f : α → β → γ) (u : Vector α m) (v : Vector β n) (hmn : m ≠ n)
    (hm : m ≠ 1) (hn : n ≠ 1) : (ofVector u).zip? f (ofVector v) = none := by
  have hshape : (ofVector u).shape.combine? (ofVector v).shape = none := by
    show Shape.combine? [m] [n] = none
    rw [Shape.combine?_vectors, if_neg (by tauto), if_neg hm]
  rw [zip?, hshape, Option.map_none]

/-- Beside a single entry the shape is that of the other vector. -/
theorem shape_of_zip?_one (f : α → β → γ) (u : Vector α m) (v : Vector β 1) :
    ∃ t, (ofVector u).zip? f (ofVector v) = some t ∧ t.shape = [m] := by
  have hshape : (ofVector u).shape.combine? (ofVector v).shape = some [m] := by
    show Shape.combine? [m] [1] = some [m]
    rw [Shape.combine?_vectors, if_pos (Or.inr rfl)]
  rw [zip?, hshape]
  exact ⟨_, rfl, rfl⟩

end Tensor

/-! ## Masks repeated along vectors -/

section Projection

variable {α : Type} {n : Nat}

/-- A combination of arrays as a vector of length `n`, if there is one and it has this shape. -/
def combinedVector (n : Nat) : Option (Tensor α) → Except ProjectionError (Vector α n)
  | none => .error .incompatible
  | some t =>
    match t.toVector? n with
    | some p => .ok p
    | none => .error .resized

theorem combinedVector_ofVector (p : Vector α n) :
    combinedVector n (some (.ofVector p)) = .ok p := by
  rw [combinedVector, Tensor.toVector?_ofVector]

theorem combinedVector_of_shape {t : Tensor α} (h : t.shape ≠ [n]) :
    combinedVector n (some t) = .error .resized := by
  rw [combinedVector, Tensor.toVector?_eq_none_iff.2 h]

/-- The first number of a pair if it is marked, and the second one otherwise. -/
def pick (marked : Bool) (p : α × α) : α :=
  if marked then p.1 else p.2

variable [Inhabited α]

/-- The entries of two tensors as a mask chooses them, after all three have been repeated along one
shape. -/
def Tensor.select? (mask : Tensor Bool) (s t : Tensor α) : Option (Tensor α) :=
  (s.zip? Prod.mk t).bind fun pairs => mask.zip? pick pairs

variable [Scalar α] {y : Vector α n} {mask : List Bool}

/-- A mask as a vector of its own length. -/
def maskVector (mask : List Bool) : Vector Bool mask.length :=
  ⟨mask.toArray, List.size_toArray⟩

/-- The projection as arrays are combined. Zero is repeated along the vector for the maxima, and
then mask, maxima and vector along one shape, which must be that of the vector. -/
def projectRepeated (y : Vector α n) (mask : List Bool) : Except ProjectionError (Vector α n) :=
  if !mask.any id then .ok y
  else
    combinedVector n (((Tensor.ofVector y).zip? Scalar.max (.scalar 0)).bind fun maxima =>
      (Tensor.ofVector (maskVector mask)).select? maxima (.ofVector y))

/-- Each number beside its maximum with zero. -/
def besideMaxima (y : Vector α n) : Vector (α × α) n :=
  y.map fun x => (Scalar.max x 0, x)

/-- The maxima have the shape of the vector, so that nothing is repeated but mask or vector. -/
theorem projectRepeated_of_marked (h : mask.any id = true) : projectRepeated y mask =
    combinedVector n
      ((Tensor.ofVector (maskVector mask)).zip? pick (.ofVector (besideMaxima y))) := by
  have hpairs : Vector.zipWith Prod.mk (y.map (Scalar.max · 0)) y = besideMaxima y := by
    ext i hi <;> simp [besideMaxima]
  unfold projectRepeated
  rw [h, Bool.not_true, if_neg Bool.false_ne_true, Tensor.zip?_scalar, Option.bind_some,
    Tensor.select?, Tensor.zip?_vectors, hpairs]
  rfl

/-- A mask picks as `clamp` does. -/
theorem zipWith_pick (marks : Vector Bool n) (y : Vector α n) :
    Vector.zipWith pick marks (besideMaxima y) = clamp marks y := by
  refine Vec.ext_get fun i => ?_
  rw [Vec.get_zipWith, besideMaxima, Vec.get_map, get_clamp, pick]

/-- A single mark picks as one for every component does. -/
theorem map_pick_true (y : Vector α n) :
    (besideMaxima y).map (pick true) = clamp (Vector.replicate n true) y := by
  refine Vec.ext_get fun i => ?_
  have hmark : (Vector.replicate n true).get i = true := Vector.getElem_replicate i.isLt
  rw [Vec.get_map, besideMaxima, Vec.get_map, get_clamp, hmark, pick]

/-- Masks of any length clamp as arrays are combined. -/
theorem project_eq_projectRepeated (y : Vector α n) (mask : List Bool) :
    project y mask = projectRepeated y mask := by
  cases hany : mask.any id with
  | false => simp [project, projectRepeated, hany]
  | true =>
    rw [projectRepeated_of_marked hany, project, hany, Bool.not_true, if_neg Bool.false_ne_true]
    -- as long as the vector, then a single mark, then beside a single number, then no common shape
    by_cases hlength : mask.length = n
    · subst hlength
      rw [dif_pos rfl, Tensor.zip?_vectors, zipWith_pick, combinedVector_ofVector]
      rfl
    rw [dif_neg hlength]
    by_cases hone : mask.length = 1
    · obtain ⟨b, rfl⟩ := List.length_eq_one_iff.1 hone
      obtain rfl : b = true := by simpa using hany
      show _ = combinedVector n ((Tensor.ofVector #v[true]).zip? pick (.ofVector (besideMaxima y)))
      rw [if_pos hone, Tensor.zip?_single, map_pick_true, combinedVector_ofVector]
    rw [if_neg hone]
    by_cases hn : n = 1
    · subst hn
      obtain ⟨t, ht, hshape⟩ :=
        Tensor.shape_of_zip?_one pick (maskVector mask) (besideMaxima y)
      rw [if_pos rfl, ht, combinedVector_of_shape (by simpa [hshape] using hlength)]
    · rw [if_neg hn, Tensor.zip?_vectors_eq_none _ _ _ hlength hone hn]
      rfl

/-- Any mask is applied to a vector as arrays are combined. It has a result exactly if it marks
nothing, is as long as the vector or has length one. The result is the vector itself where
nothing is marked; it clamps the marked components by a mask of the vector's length, and all of
them by a single mark. Every other mask is refused, since beside a vector of length one the
result would be longer, and otherwise the lengths do not fit. -/
theorem project_of_any_mask (y : Vector α n) (mask : List Bool) :
    project y mask = projectRepeated y mask ∧
    ((∃ p, project y mask = .ok p) ↔ true ∉ mask ∨ mask.length = n ∨ mask.length = 1) ∧
    (true ∉ mask → project y mask = .ok y) ∧
    (mask.length = n → ∃ p, project y mask = .ok p ∧
      ∀ i, (Marks mask i → p.get i = Scalar.max (y.get i) 0) ∧
        (¬Marks mask i → p.get i = y.get i)) ∧
    (mask = [true] → ∃ p, project y mask = .ok p ∧ ∀ i, p.get i = Scalar.max (y.get i) 0) ∧
    ∀ e, project y mask = .error e ↔ true ∈ mask ∧ mask.length ≠ n ∧ mask.length ≠ 1 ∧
      e = if n = 1 then .resized else .incompatible := by
  refine ⟨project_eq_projectRepeated y mask, exists_project_iff, project_of_not_mem, fun h => ?_,
    ?_, fun e => project_eq_error_iff⟩
  · obtain ⟨marks, hmarks, hproject⟩ := exists_clamp_of_length h
    refine ⟨clamp marks y, hproject y, fun i => ⟨fun hi => ?_, fun hi => ?_⟩⟩
    · rw [get_clamp, if_pos ((hmarks i).2 hi)]
    · rw [get_clamp, if_neg (mt (hmarks i).1 hi)]
  · rintro rfl
    refine ⟨_, project_single y, fun i => ?_⟩
    rw [get_clamp]
    exact if_pos (Vector.getElem_replicate i.isLt)

end Projection

end Stationary
