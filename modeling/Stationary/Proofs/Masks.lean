import Mathlib.Data.List.Forall2
import Mathlib.Tactic.Ring
import Stationary.Configuration
import Stationary.Proofs.Stopping

/-!
# Masks

A policy that has a tag for each component (`Setting.tags?`) has the mask of their sequence,
whatever kind of collection holds them (`Setting.projectionMask_of_tags`). A range is not
written out for this, be it held by an array or not, and has the same mask or the same error as
the tuple of its integers, as long as these can be counted (`maskOfRange_eq`); it has a mask
only if there are at most two of them.

A run asks the policy for its mask and for nothing else, so two policies with the same mask, or
the same error, make the same run, journal included (`Newton.run_withPolicy`).
-/

set_option linter.unusedSectionVars false

namespace Stationary

open Journaled

variable {n : Nat} {machine : Machine}

/-! ## Tags -/

theorem maskFor_eq_ok_iff {policy : Setting} {mask : Vector Bool n} :
    maskFor machine policy n = .ok mask ↔ projectionMask machine policy n = .ok mask.toList := by
  unfold maskFor
  split
  · rename_i m hm
    constructor
    · intro h
      rw [← Except.ok.inj h]
      exact hm
    · intro h
      obtain rfl : m = mask.toList := Except.ok.inj (hm.symm.trans h)
      rfl
  · rename_i e he
    rw [he]
    simp

theorem maskFor_eq_error_iff {policy : Setting} {e : PolicyError} :
    maskFor machine policy n = .error e ↔ projectionMask machine policy n = .error e := by
  unfold maskFor
  split
  · rename_i m hm
    simp [hm]
  · rename_i e' he
    rw [he, Except.error.injEq, Except.error.injEq]

/-- A list of tags has a mask if each tag has its entry. -/
theorem maskOfTags_eq_ok_iff {tags : List Setting} {m : List Bool} :
    maskOfTags tags = .ok m ↔ List.Forall₂ (fun t b => readTag t = .ok b) tags m := by
  induction tags generalizing m with
  | nil =>
    unfold maskOfTags
    rw [List.forall₂_nil_left_iff, Except.ok.injEq, eq_comm]
  | cons t ts ih =>
    unfold maskOfTags
    rw [List.forall₂_cons_left_iff]
    cases ht : readTag t with
    | error e => simp
    | ok b =>
      simp only [map_eq_ok_iff, ih, Except.ok.injEq]
      constructor
      · rintro ⟨m', hm', rfl⟩
        exact ⟨b, m', rfl, hm', rfl⟩
      · rintro ⟨_, m', rfl, hm', rfl⟩
        exact ⟨m', hm', rfl⟩

theorem maskOfSequence_eq_ok_iff {items : List Setting} {n : Int} {m : List Bool} :
    maskOfSequence items n = .ok m ↔ (items.length : Int) = n ∧ maskOfTags items = .ok m := by
  unfold maskOfSequence
  split <;> simp_all

/-! ## Ranges -/

theorem maskOfIntegers_eq (step start : Int) (count : Nat) : maskOfIntegers step start count =
    maskOfTags ((List.range count).map fun (k : Nat) => .int (start + k * step)) := by
  induction count generalizing start with
  | zero => rfl
  | succ count ih =>
    have hshift : ((fun (k : Nat) => Setting.int (start + k * step)) ∘ Nat.succ) =
        fun (k : Nat) => .int (start + step + k * step) := by
      funext k
      simp only [Function.comp_apply, Nat.succ_eq_add_one, Nat.cast_add, Nat.cast_one]
      congr 1
      ring
    rw [List.range_succ_eq_map, List.map_cons, List.map_map, hshift, maskOfTags, maskOfIntegers,
      ih, Nat.cast_zero, zero_mul, add_zero]

/-- Only zero and one are tags, so different integers that have a mask are two at most. -/
theorem length_le_of_maskOfIntegers {step start : Int} (hstep : step ≠ 0) {count : Nat}
    {m : List Bool} (h : maskOfIntegers step start count = .ok m) : count ≤ 2 := by
  have htag : ∀ {i : Int} {b : Bool}, readTag (.int i) = .ok b → i = 0 ∨ i = 1 := by
    intro i b hi
    by_contra hno
    rw [not_or] at hno
    simp [readTag, Setting.tag?, hno.1, hno.2] at hi
  by_contra hlarge
  obtain ⟨rest, rfl⟩ : ∃ rest, count = rest + 3 := ⟨count - 3, by omega⟩
  have hread : ∀ k < rest + 3, start + (k : Int) * step = 0 ∨ start + (k : Int) * step = 1 := by
    rw [maskOfIntegers_eq, maskOfTags_eq_ok_iff] at h
    intro k hk
    obtain ⟨hlen, hentries⟩ := List.forall₂_iff_get.1 h
    have hk' : k < ((List.range (rest + 3)).map fun (k : Nat) =>
        Setting.int (start + k * step)).length := by simpa using hk
    have hentry := hentries k hk' (hlen ▸ hk')
    simp only [List.get_eq_getElem, List.getElem_map, List.getElem_range] at hentry
    exact htag hentry
  have h0 := hread 0 (by omega)
  have h1 := hread 1 (by omega)
  have h2 := hread 2 (by omega)
  push_cast at h0 h1 h2
  omega

theorem length_integers (r : IntegerRange) : (Setting.integers r).length = r.count := by
  simp [Setting.integers]

/-- A range whose integers can be counted is a sequence of them. -/
theorem maskOfRange_eq {r : IntegerRange} (h : r.isTooLong = false) (n : Int) :
    maskOfRange r n = maskOfSequence (Setting.integers r) n := by
  unfold maskOfRange maskOfSequence
  rw [length_integers, Setting.integers, h, maskOfIntegers_eq]
  rfl

/-- A range has a mask only if it has two integers at most. -/
theorem count_le_of_maskOfRange {r : IntegerRange} {n : Int} {m : List Bool}
    (h : maskOfRange r n = .ok m) : r.count ≤ 2 := by
  unfold maskOfRange at h
  split at h
  · cases h
  · split at h
    · exact length_le_of_maskOfIntegers r.step_ne_zero h
    · cases h

theorem maskOfRange_eq_ok_iff {r : IntegerRange} {n : Int} {m : List Bool} :
    maskOfRange r n = .ok m ↔ maskOfSequence (Setting.integers r) n = .ok m := by
  cases hlong : r.isTooLong with
  | false => rw [maskOfRange_eq hlong]
  | true =>
    unfold IntegerRange.isTooLong at hlong
    rw [decide_eq_true_eq] at hlong
    constructor
    · intro h
      have hcount := count_le_of_maskOfRange h
      omega
    · intro h
      obtain ⟨-, hm⟩ := maskOfSequence_eq_ok_iff.1 h
      have hintegers : maskOfTags (Setting.integers r) = maskOfIntegers r.step r.start r.count :=
        (maskOfIntegers_eq r.step r.start r.count).symm
      rw [hintegers] at hm
      have hcount := length_le_of_maskOfIntegers r.step_ne_zero hm
      omega

/-! ## Policies with tags -/

namespace Setting

/-- A policy as its elements are looked for : of an array what it holds. -/
def nested : Setting → Setting
  | array _ _ contents => contents
  | other => other

/-- The tags of a policy that has one for each component. -/
def tags? : Setting → Option (List Setting)
  | .text _ => none
  | policy => policy.nested.arrayItems?

/-- The policy is a range with more integers than can be counted, or an array that holds one. -/
def isUncountable (policy : Setting) : Bool :=
  match policy.nested with
  | .range r => r.isTooLong
  | _ => false

variable {policy : Setting} {items : List Setting} {mask : Vector Bool n}

/-- Every policy but a text is resolved by its elements. -/
theorem projectionMask_eq_maskOfElements (h : ∀ s, policy ≠ .text s) (n : Int) :
    projectionMask machine policy n = maskOfElements policy.nested n := by
  cases policy with
  | text s => exact absurd rfl (h s)
  | _ => rfl

theorem ne_text_of_tags? (h : policy.tags? = some items) (s : String) : policy ≠ .text s := by
  rintro rfl
  cases h

theorem tags?_eq_arrayItems? (h : ∀ s, policy ≠ .text s) :
    policy.tags? = policy.nested.arrayItems? := by
  cases policy with
  | text s => exact absurd rfl (h s)
  | _ => rfl

theorem isUncountable_of_nested {r : IntegerRange} (h : policy.nested = .range r) :
    policy.isUncountable = r.isTooLong := by
  unfold isUncountable
  rw [h]

/-- Elements that can be counted have the mask, or the error, of their sequence. -/
theorem maskOfElements_of_items {contents : Setting} (h : contents.arrayItems? = some items)
    (hcount : ∀ r, contents = .range r → r.isTooLong = false) (n : Int) :
    maskOfElements contents n = maskOfSequence items n := by
  unfold maskOfElements
  split
  · rename_i r
    obtain rfl : integers r = items := Option.some.inj h
    exact maskOfRange_eq (hcount r rfl) n
  · rw [h]

/-- A policy with tags has the mask, or the error, of their sequence. -/
theorem projectionMask_of_tags (h : policy.tags? = some items)
    (hcount : policy.isUncountable = false) (n : Int) :
    projectionMask machine policy n = maskOfSequence items n := by
  have htext := ne_text_of_tags? h
  rw [tags?_eq_arrayItems? htext] at h
  rw [projectionMask_eq_maskOfElements htext]
  refine maskOfElements_of_items h (fun r hr => ?_) n
  rwa [← isUncountable_of_nested hr]

/-- A policy with tags has the mask of their sequence. -/
theorem projectionMask_eq_ok_iff {m : List Bool} (h : policy.tags? = some items) :
    projectionMask machine policy n = .ok m ↔ maskOfSequence items n = .ok m := by
  cases hcount : policy.isUncountable with
  | false => rw [projectionMask_of_tags h hcount]
  | true =>
    have htext := ne_text_of_tags? h
    rw [tags?_eq_arrayItems? htext] at h
    rw [projectionMask_eq_maskOfElements htext]
    unfold isUncountable at hcount
    split at hcount
    · rename_i r hr
      rw [hr] at h ⊢
      obtain rfl : integers r = items := Option.some.inj h
      exact maskOfRange_eq_ok_iff
    · cases hcount

/-- A policy is a text, or it has tags, or it has neither. -/
theorem cases_of_policy (policy : Setting) : (∃ s, policy = .text s) ∨
    (∃ items, policy.tags? = some items) ∨
      (∀ s, policy ≠ .text s) ∧ policy.tags? = none := by
  cases htags : policy.tags? with
  | some items => exact Or.inr (Or.inl ⟨items, rfl⟩)
  | none =>
    by_cases htext : ∃ s, policy = .text s
    · exact Or.inl htext
    · exact Or.inr (Or.inr ⟨not_exists.1 htext, rfl⟩)

theorem projectionMask_of_notASequence (htext : ∀ s, policy ≠ .text s)
    (htags : policy.tags? = none) (n : Int) :
    projectionMask machine policy n = .error (.notASequence policy.nested.kind) := by
  rw [tags?_eq_arrayItems? htext] at htags
  rw [projectionMask_eq_maskOfElements htext]
  unfold maskOfElements
  split
  · rename_i r hr
    rw [hr] at htags
    cases htags
  · rw [htags]

theorem projectionMask_of_isUncountable (h : policy.isUncountable = true) (n : Int) :
    projectionMask machine policy n = .error .rangeTooLong := by
  unfold isUncountable at h
  split at h
  · rename_i r hr
    have htext : ∀ s, policy ≠ .text s := by
      rintro s rfl
      cases hr
    rw [projectionMask_eq_maskOfElements htext, hr]
    exact if_pos h
  · cases h

/-- A policy with a tag for each component has the mask of its tags. -/
theorem maskFor_eq_ok_iff_of_tags (h : policy.tags? = some items) (hn : items.length = n) :
    maskFor machine policy n = .ok mask ↔
      ∀ i : Fin n, readTag (items.get (i.cast hn.symm)) = .ok (mask.get i) := by
  subst hn
  rw [maskFor_eq_ok_iff, projectionMask_eq_ok_iff h, maskOfSequence_eq_ok_iff,
    maskOfTags_eq_ok_iff, List.forall₂_iff_get]
  constructor
  · rintro ⟨-, -, hread⟩ i
    exact hread i i.isLt (by simp)
  · intro hread
    refine ⟨rfl, by simp, fun i hi _ => hread ⟨i, hi⟩⟩

end Setting

/-! ## Runs with another policy -/

theorem maskFor_congr {policy policy' : Setting}
    (h : projectionMask machine policy n = projectionMask machine policy' n) :
    maskFor machine policy n = maskFor machine policy' n := by
  cases hm : maskFor machine policy' n with
  | ok mask =>
    rw [maskFor_eq_ok_iff] at hm ⊢
    rw [h, hm]
  | error e =>
    rw [maskFor_eq_error_iff] at hm ⊢
    rw [h, hm]

namespace Newton

/-- The iteration with another policy. -/
def withPolicy {α : Type} (newton : Newton α) (policy : Setting) : Newton α :=
  { newton with projection := policy }

variable {α : Type} [Scalar α] {newton : Newton α} {policy : Setting} {system : System α n}

theorem init_withPolicy
    (h : maskFor newton.machine newton.projection n = maskFor newton.machine policy n)
    (y : Vector α n) : (newton.withPolicy policy).init system y = newton.init system y := by
  by_cases hn : n = 0
  · rw [init_eq_throw _ system y hn, init_eq_throw _ system y hn]
  · rw [init_eq _ system y hn, init_eq _ system y hn, h]
    rfl

variable [Decomposes α]

theorem step_withPolicy
    (h : maskFor newton.machine newton.projection n = maskFor newton.machine policy n)
    (y : Vector α n) (s : State α n) :
    (newton.withPolicy policy).step system y s = newton.step system y s := by
  rw [step_eq, step_eq, h]
  rfl

theorem iterate_withPolicy
    (h : maskFor newton.machine newton.projection n = maskFor newton.machine policy n)
    (y : Vector α n) (s : State α n) :
    (newton.withPolicy policy).iterate system y s = newton.iterate system y s := by
  have hstep : (newton.withPolicy policy).step system = newton.step system :=
    funext fun y => funext fun s => step_withPolicy h y s
  unfold iterate
  rw [hstep]
  rfl

/-- Two policies with the same mask, or the same error, make the same run. -/
theorem run_withPolicy
    (h : maskFor newton.machine newton.projection n = maskFor newton.machine policy n)
    (y : Vector α n) : (newton.withPolicy policy).run system y = newton.run system y := by
  unfold run
  simp only [init_withPolicy h, iterate_withPolicy h]
  rfl

end Newton

end Stationary
