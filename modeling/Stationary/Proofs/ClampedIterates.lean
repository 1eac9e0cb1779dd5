import Stationary.Proofs.Infinities
import Stationary.Proofs.LoopHeads
import Stationary.Proofs.RoundedFormats

/-!
# Clamped iterates

A start is never clamped. The iterate stays at the start for as long as no step can be used, and
the first step that can be used clamps all the marked components at once. From then on they are
not negative : a later step clamps them again, or cannot be used and leaves the iterate alone
(`Newton.clamped_of_walk`).

For this a component has to be a number. A step that can be used is finite, and a finite number
added to a number, be it infinite, is a number (`Flushed.IsDefined.add`); its maximum with zero
is one that is not negative (`Flushed.IsDefined.isNonneg_max_zero`). So no iterate has an undefined
component unless the start has one, however large the sums get.
-/

set_option linter.unusedSectionVars false

namespace Stationary

open BinaryFormat
open Float.Model (UnpackedFloat)

/-! ## Components -/

/-- Zero of any sign, positive, or positive infinity. -/
def IsNonnegative : UnpackedFloat → Prop
  | .zero _ => True
  | .finite .positive _ _ _ => True
  | .infinity .positive => True
  | _ => False

theorem isNonnegative_iff {u : UnpackedFloat} :
    IsNonnegative u ↔ (UnpackedFloat.zero .positive).le u = true := by
  cases u with
  | notANumber => exact ⟨False.elim, fun h => Bool.false_ne_true h⟩
  | zero sign => cases sign <;> exact ⟨fun _ => rfl, fun _ => trivial⟩
  | infinity sign =>
    cases sign with
    | positive => exact ⟨fun _ => rfl, fun _ => trivial⟩
    | negative => exact ⟨False.elim, fun h => Bool.false_ne_true h⟩
  | finite sign m e hpos =>
    cases sign with
    | positive => exact ⟨fun _ => rfl, fun _ => trivial⟩
    | negative => exact ⟨False.elim, fun h => Bool.false_ne_true h⟩

/-- The maximum of a number with zero is not negative. -/
theorem isNonnegative_max_zero {α : Type} [Scalar α] [BinaryFormat α] [MaximumLaws α] {x : α}
    (h : unpack x ≠ .notANumber) : IsNonnegative (unpack (Scalar.max x 0)) := by
  rw [max_zero_eq]
  split
  · rename_i sign hx
    obtain ⟨t, ht⟩ := exists_zero_add_zero hx
    rw [ht]
    trivial
  · rw [unpack_zero]
    trivial
  · rw [unpack_zero]
    trivial
  · rename_i hzero hinfinite hnegative
    cases hx : unpack x with
    | notANumber => exact absurd hx h
    | zero sign => exact absurd hx (hzero sign)
    | infinity sign =>
      cases sign with
      | positive => trivial
      | negative => exact absurd hx hinfinite
    | finite sign m e hpos =>
      cases sign with
      | positive => trivial
      | negative => exact absurd hx (hnegative m e hpos)

namespace Flushed

variable {α : Type} [Scalar α] [Subnormal α] [BinaryFormat α] {x d : Flushed α}

/-- The number is finite or infinite. -/
def IsDefined (x : Flushed α) : Prop :=
  unpack x.value ≠ .notANumber

/-- The number as it is stored, subnormal or not, is at least zero. -/
def IsNonneg (x : Flushed α) : Prop :=
  Scalar.le 0 x.value = true

theorem isNonneg_iff [RoundedFormat α] : x.IsNonneg ↔ IsNonnegative (unpack x.value) := by
  unfold IsNonneg
  rw [RoundedFormat.le_eq_unpack, unpack_zero, isNonnegative_iff]

theorem IsNonneg.isDefined [RoundedFormat α] (h : x.IsNonneg) : x.IsDefined := by
  intro hx
  rw [isNonneg_iff, hx] at h
  exact h

theorem unpack_flush_ne_notANumber {z : α} (h : unpack z ≠ .notANumber) :
    unpack (flush z) ≠ .notANumber := by
  intro hflush
  rcases flush_eq_or z with hz | hz
  · rw [hz] at hflush
    exact h hflush
  · rw [hflush] at hz
    exact hz

theorem isNonnegative_flush {z : α} (h : IsNonnegative (unpack z)) :
    IsNonnegative (unpack (flush z)) := by
  rcases flush_eq_or z with hz | hz
  · rw [hz]
    exact h
  · obtain ⟨sign, hsign⟩ := hz.exists_sign
    rw [hsign]
    trivial

/-- A finite change of a number is a number. -/
theorem IsDefined.add (hx : x.IsDefined) (hd : Scalar.isFinite d = true) : (x + d).IsDefined := by
  have hd' : (unpack (flush d.value)).isFinite = true := by
    rw [← isFinite_eq_unpack, isFinite_flush]
    exact hd
  refine unpack_flush_ne_notANumber (z := flush x.value + flush d.value) ?_
  rw [add_eq_pack]
  refine UnpackedNumber.unpack_pack_ne_notANumber α ?_
  rcases UnpackedNumber.isFinite_or_infinity (unpack_flush_ne_notANumber hx) with
    hfin | ⟨sign, hinf⟩
  · exact UnpackedNumber.add_ne_notANumber (format α) hfin hd'
  · rw [hinf, UnpackedNumber.add_infinity_left _ _ hd']
    exact UnpackedFloat.noConfusion

/-- The maximum of a number with zero is at least zero. -/
theorem IsDefined.isNonneg_max_zero [MaximumLaws α] [RoundedFormat α] (hx : x.IsDefined) :
    (Scalar.max x 0).IsNonneg := by
  rw [isNonneg_iff, max_zero_value]
  exact isNonnegative_flush (isNonnegative_max_zero (unpack_flush_ne_notANumber hx))

end Flushed

namespace Newton

open Journaled

/-! ## Steps -/

section Steps

variable {α : Type} {n : Nat} [Scalar α] [Decomposes α] {newton : Newton α}
  {system : System α n} {y y' : Vector α n} {s s' : State α n}

/-- A step that can be used changes every component by its own part of the linear step, and clamps
the marked ones; a step that cannot be used changes no component. -/
structure MovesBy (mask : Vector Bool n) (y : Vector α n) (d : LinearStep α n)
    (y' : Vector α n) : Prop where
  used : d.usable = true → ∀ i, y'.get i =
    if mask.get i then Scalar.max (y.get i + d.delta.get i) 0 else y.get i + d.delta.get i
  unused : d.usable = false → y' = y

theorem movesBy_advance (mask : Vector Bool n) (y : Vector α n) (d : LinearStep α n) :
    MovesBy mask y d (advance mask y d) :=
  ⟨fun hu => get_advance_of_usable mask y hu, fun hu => advance_of_unusable mask y hu⟩

theorem exists_movesBy (h : (newton.step system y s).value = .ok (y', s')) :
    ∃ mask d, maskFor newton.machine newton.projection n = .ok mask ∧ newton.Solves system y s d ∧
      s'.stepFailed = !d.usable ∧ MovesBy mask y d y' := by
  obtain ⟨mask, A, d, f, hm, hA, hd, rfl, -, rfl⟩ := value_step_eq_ok_iff.1 h
  exact ⟨mask, d, hm, ⟨A, hA, hd⟩, rfl, movesBy_advance mask y d⟩

/-- Some step from one of the first `k` places of the walk can be used. -/
def SucceedsBefore (newton : Newton α) (system : System α n) (y₀ : Vector α n) (k : Nat) : Prop :=
  ∃ j z t d, j < k ∧ newton.walk system y₀ j = .ok (z, t) ∧ newton.Solves system z t d ∧
    d.usable = true

theorem succeedsBefore_succ_iff {y₀ : Vector α n} {k : Nat} {d : LinearStep α n}
    (h : newton.walk system y₀ k = .ok (y, s)) (hd : newton.Solves system y s d) :
    newton.SucceedsBefore system y₀ (k + 1) ↔
      newton.SucceedsBefore system y₀ k ∨ d.usable = true := by
  constructor
  · rintro ⟨j, z, t, d', hj, hz, hd', hu⟩
    rcases Nat.lt_succ_iff_lt_or_eq.1 hj with hj | rfl
    · exact Or.inl ⟨j, z, t, d', hj, hz, hd', hu⟩
    · obtain ⟨rfl, rfl⟩ := Prod.mk.inj (Except.ok.inj (h.symm.trans hz))
      rw [hd.unique hd']
      exact Or.inr hu
  · rintro (⟨j, z, t, d', hj, hz, hd', hu⟩ | hu)
    · exact ⟨j, z, t, d', Nat.lt_succ_of_lt hj, hz, hd', hu⟩
    · exact ⟨k, y, s, d, Nat.lt_succ_self k, h, hd, hu⟩

theorem succeedsBefore_of_not_failed {y₀ : Vector α n} {k : Nat}
    (h : newton.walk system y₀ (k + 1) = .ok (y, s)) (hs : s.stepFailed = false) :
    newton.SucceedsBefore system y₀ (k + 1) := by
  obtain ⟨z, t, hz, hstep⟩ := walk_succ_eq_ok_iff.1 h
  obtain ⟨d, hd, hfailed⟩ := stepFailed_step hstep
  refine (succeedsBefore_succ_iff hz hd).2 (Or.inr ?_)
  simpa [hs] using hfailed.symm

end Steps

/-! ## Walks -/

section Formats

variable {α : Type} {n : Nat} [Scalar α] [Subnormal α] [Binade α] [BinaryFormat α]
  [MaximumLaws α] [RoundedFormat α] {newton : Newton (Flushed α)} {system : System (Flushed α) n}
  {y₀ y y' : Vector (Flushed α) n} {s : State (Flushed α) n} {mask : Vector Bool n}
  {d : LinearStep (Flushed α) n} {k : Nat}

/-- A finite step leaves no component undefined, and no marked one negative. -/
theorem MovesBy.clamps (h : MovesBy mask y d y') (hu : d.usable = true)
    (hd : Vec.allFinite d.delta = true) (hy : ∀ i, (y.get i).IsDefined) :
    (∀ i, (y'.get i).IsDefined) ∧ ∀ i, mask.get i = true → (y'.get i).IsNonneg := by
  have hsum : ∀ i, (y.get i + d.delta.get i).IsDefined :=
    fun i => (hy i).add (Vec.allFinite_eq_true_iff.1 hd i)
  refine ⟨fun i => ?_, fun i hi => ?_⟩
  · rw [h.used hu i]
    split
    · exact (hsum i).isNonneg_max_zero.isDefined
    · exact hsum i
  · rw [h.used hu i, if_pos hi]
    exact (hsum i).isNonneg_max_zero

/-- No component of an iterate is undefined. The iterate is the start as long as no step can be
used, and has no negative component among the marked ones from then on. -/
theorem clamped_of_walk (hy₀ : ∀ i, (y₀.get i).IsDefined)
    (h : newton.walk system y₀ k = .ok (y, s)) :
    (∀ i, (y.get i).IsDefined) ∧ (¬newton.SucceedsBefore system y₀ k → y = y₀) ∧
      (newton.SucceedsBefore system y₀ k →
        ∃ mask, maskFor newton.machine newton.projection n = .ok mask ∧
          ∀ i, mask.get i = true → (y.get i).IsNonneg) := by
  induction k generalizing y s with
  | zero =>
    obtain ⟨rfl, -⟩ := walk_zero_eq_ok_iff.1 h
    refine ⟨hy₀, fun _ => rfl, ?_⟩
    rintro ⟨j, z, t, d, hj, -⟩
    exact absurd hj (Nat.not_lt_zero j)
  | succ k ih =>
    obtain ⟨z, t, hz, hstep⟩ := walk_succ_eq_ok_iff.1 h
    obtain ⟨hdefined, hstart, hclamped⟩ := ih hz
    obtain ⟨mask, d, hm, hd, -, hmoves⟩ := exists_movesBy hstep
    rw [succeedsBefore_succ_iff hz hd]
    cases hu : d.usable with
    | false =>
      rw [hmoves.unused hu]
      exact ⟨hdefined, fun hno => hstart fun hyes => hno (Or.inl hyes),
        fun hyes => hclamped (hyes.resolve_right Bool.false_ne_true)⟩
    | true =>
      obtain ⟨A, hA, hlinear⟩ := hd
      obtain ⟨hdefined', hclamped'⟩ := hmoves.clamps hu (allFinite_of_usable hlinear hu) hdefined
      exact ⟨hdefined', fun hno => absurd (Or.inr rfl) hno, fun _ => ⟨mask, hm, hclamped'⟩⟩

/-- From a start without undefined components no iterate has one, though components may become
infinite. As long as no step can be used the iterate is the start, unclamped; from the first step
on that can be used every marked component is at least zero. A step that can be used changes the
other components by exactly what it solves for, and a step that cannot be used changes nothing. The
places that a run visits, and the value that it returns, are among these iterates. -/
theorem iterates_are_clamped (newton : Newton (Flushed α)) (system : System (Flushed α) n)
    {y₀ : Vector (Flushed α) n} (hy₀ : ∀ i, (y₀.get i).IsDefined) :
    (∀ k y s, newton.walk system y₀ k = .ok (y, s) →
      (∀ i, (y.get i).IsDefined) ∧ (¬newton.SucceedsBefore system y₀ k → y = y₀) ∧
      (newton.SucceedsBefore system y₀ k →
        ∃ mask, maskFor newton.machine newton.projection n = .ok mask ∧
          ∀ i, mask.get i = true → (y.get i).IsNonneg) ∧
      ∀ y' s', (newton.step system y s).value = .ok (y', s') →
        ∃ mask d, maskFor newton.machine newton.projection n = .ok mask ∧
          newton.Solves system y s d ∧ s'.stepFailed = !d.usable ∧ MovesBy mask y d y') ∧
    (∀ k y s, Visits newton system y₀ k y s → newton.walk system y₀ k = .ok (y, s)) ∧
    ∀ solution, (newton.run system y₀).value = .ok solution →
      ∃ k s, solution.steps = newton.machine.counted k ∧
        newton.walk system y₀ k = .ok (solution.value, s) := by
  refine ⟨fun k y s h => ?_, fun k y s h => h.walk, fun solution hrun => ?_⟩
  · obtain ⟨hdefined, hstart, hclamped⟩ := clamped_of_walk hy₀ h
    exact ⟨hdefined, hstart, hclamped, fun y' s' hstep => exists_movesBy hstep⟩
  · obtain ⟨k, s, hvisit, hend, -⟩ := exists_visits_of_run hrun
    exact ⟨k, s, hvisit.steps_of_ending hend, hvisit.walk⟩

end Formats

/-- The equation `y + 4 = 0` in binary64. -/
def shiftedEquation : System Binary64 1 :=
  .ofMaps (fun y => y.map (· + ⟨4⟩)) fun _ => .replicate 1 (.replicate 1 1)

/-- The root is negative : the first step, from a negative start, leads to zero instead. -/
theorem clamped_shiftedEquation :
    (∀ i, ((#v[⟨-1⟩] : Vector Binary64 1).get i).IsDefined) ∧
      ∃ y s mask, (Solver.standard.newton Binary64).walk shiftedEquation #v[⟨-1⟩] 1 =
          .ok (y, s) ∧ y = #v[0] ∧
        maskFor (Solver.standard.newton Binary64).machine
          (Solver.standard.newton Binary64).projection 1 = .ok mask ∧
        ∀ i, mask.get i = true → (y.get i).IsNonneg := by
  have hstart : ∀ i, ((#v[⟨-1⟩] : Vector Binary64 1).get i).IsDefined := by
    intro i
    fin_cases i
    exact UnpackedFloat.noConfusion
  have heval : ((Solver.standard.newton Binary64).walk shiftedEquation #v[⟨-1⟩]
      1).toOption.map (fun p => (p.1, p.2.stepFailed)) = some (#v[0], false) := by
    decide +kernel
  cases hwalk : (Solver.standard.newton Binary64).walk shiftedEquation #v[⟨-1⟩] 1 with
  | error e =>
    rw [hwalk] at heval
    cases heval
  | ok p =>
    rw [hwalk] at heval
    obtain ⟨hy, hs⟩ := Prod.mk.inj (Option.some.inj heval)
    obtain ⟨hiterates, -⟩ :=
      iterates_are_clamped (Solver.standard.newton Binary64) shiftedEquation hstart
    obtain ⟨-, -, hclamped, -⟩ := hiterates 1 p.1 p.2 hwalk
    obtain ⟨mask, hm, hmarked⟩ := hclamped (succeedsBefore_of_not_failed hwalk hs)
    exact ⟨hstart, p.1, p.2, mask, rfl, hy, hm, hmarked⟩

end Newton

end Stationary
