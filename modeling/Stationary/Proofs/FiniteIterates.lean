import Stationary.Proofs.Infinities
import Stationary.Proofs.LoopHeads

/-!
# Finite iterates

A step that can be used has finite components, and one that cannot leaves the iterate alone. But
the sum of a finite iterate and a finite step may be too large, and nothing looks at it again :
what is infinite then and is not clamped to zero has escaped (`Flushed.Escapes`), and no later
step brings it back. So an iterate is finite exactly if no step before it let a component
escape (`Newton.allFinite_walk_iff`), and with it the value of a run, be it returned or carried
by an error.
-/

set_option linter.unusedSectionVars false

namespace Stationary

open BinaryFormat

/-! ## Components -/

namespace Flushed

variable {α : Type} [Scalar α] [Subnormal α] [BinaryFormat α] {x d : Flushed α} {marked : Bool}

/-- The number is infinite, and the clamp, which takes negative infinity to zero where it is
marked, leaves it so. -/
def Escapes (marked : Bool) (x : Flushed α) : Prop :=
  IsInfinity .positive x ∨ marked = false ∧ IsInfinity .negative x

namespace Escapes

theorem isFinite_eq_false (h : Escapes marked x) : Scalar.isFinite x = false := by
  rcases h with h | ⟨-, h⟩
  · exact h.isFinite_eq_false
  · exact h.isFinite_eq_false

/-- A finite change does not bring back what has escaped. -/
theorem add (h : Escapes marked x) (hd : Scalar.isFinite d = true) : Escapes marked (x + d) := by
  rcases h with h | ⟨hm, h⟩
  · exact Or.inl (h.add hd)
  · exact Or.inr ⟨hm, h.add hd⟩

variable [MaximumLaws α]

/-- Nor does the clamp. -/
theorem clamped (h : Escapes marked x) :
    Escapes marked (if marked then Scalar.max x 0 else x) := by
  rcases h with h | ⟨rfl, h⟩
  · cases marked with
    | true => exact Or.inl h.max_zero
    | false => exact Or.inl h
  · exact Or.inr ⟨rfl, h⟩

end Escapes

variable [MaximumLaws α]

/-- A number that is finite or infinite is finite after the clamp, or it has escaped. -/
theorem isFinite_clamped_or_escapes
    (h : Scalar.isFinite x = true ∨ ∃ sign, IsInfinity sign x) :
    Scalar.isFinite (if marked then Scalar.max x 0 else x) = true ∨ Escapes marked x := by
  rcases h with h | ⟨sign, h⟩
  · cases marked with
    | true => exact Or.inl (isFinite_max_zero h)
    | false => exact Or.inl h
  · cases sign with
    | positive => exact Or.inr (Or.inl h)
    | negative =>
      cases marked with
      | true => exact Or.inl h.isFinite_max_zero
      | false => exact Or.inr (Or.inr ⟨rfl, h⟩)

end Flushed

namespace Newton

section Formats

open Journaled

variable {α : Type} {n : Nat} [Scalar α] [Subnormal α] [Binade α] [BinaryFormat α]
  {newton : Newton (Flushed α)} {system : System (Flushed α) n}
  {y₀ y : Vector (Flushed α) n} {s : State (Flushed α) n} {mask : Vector Bool n}
  {d : LinearStep (Flushed α) n} {k : Nat}

/-! ## Steps -/

/-- Every component is finite or has escaped. -/
def Settled (mask : Vector Bool n) (y : Vector (Flushed α) n) : Prop :=
  ∀ i, Scalar.isFinite (y.get i) = true ∨ Flushed.Escapes (mask.get i) (y.get i)

theorem settled_of_allFinite (mask : Vector Bool n) (h : Vec.allFinite y = true) :
    Settled mask y :=
  fun i => Or.inl (Vec.allFinite_eq_true_iff.1 h i)

variable [MaximumLaws α]

/-- After a finite step every component is finite or has escaped again, and it is finite exactly
if it was before and its sum does not escape. -/
theorem isFinite_advance_iff (hu : d.usable = true) (hd : Vec.allFinite d.delta = true)
    (h : Settled mask y) (i : Fin n) :
    (Scalar.isFinite ((advance mask y d).get i) = true ↔ Scalar.isFinite (y.get i) = true ∧
        ¬Flushed.Escapes (mask.get i) (y.get i + d.delta.get i)) ∧
      (Scalar.isFinite ((advance mask y d).get i) = true ∨
        Flushed.Escapes (mask.get i) ((advance mask y d).get i)) := by
  have hdi : Scalar.isFinite (d.delta.get i) = true := Vec.allFinite_eq_true_iff.1 hd i
  rw [get_advance_of_usable mask y hu]
  by_cases hescapes : Flushed.Escapes (mask.get i) (y.get i + d.delta.get i)
  · have hclamped := hescapes.clamped
    have hfin := hclamped.isFinite_eq_false
    refine ⟨⟨fun hf => ?_, fun hf => absurd hescapes hf.2⟩, Or.inr hclamped⟩
    rw [hfin] at hf
    cases hf
  · have hyi : Scalar.isFinite (y.get i) = true :=
      (h i).resolve_right fun he => hescapes (he.add hdi)
    have hfin : Scalar.isFinite (if mask.get i then Scalar.max (y.get i + d.delta.get i) 0
        else y.get i + d.delta.get i) = true :=
      (Flushed.isFinite_clamped_or_escapes
        (Flushed.isFinite_or_isInfinity_add hyi hdi)).resolve_right hescapes
    exact ⟨⟨fun _ => ⟨hyi, hescapes⟩, fun _ => hfin⟩, Or.inl hfin⟩

/-! ## Walks -/

/-- The step from place `j` of the walk can be used, but one of the sums it makes is too large,
and is not clamped to zero. -/
def OverflowsAt (newton : Newton (Flushed α)) (system : System (Flushed α) n)
    (y₀ : Vector (Flushed α) n) (j : Nat) : Prop :=
  ∃ z t mask d i, newton.walk system y₀ j = .ok (z, t) ∧
    maskFor newton.machine newton.projection n = .ok mask ∧ newton.Solves system z t d ∧
    d.usable = true ∧ Flushed.Escapes (mask.get i) (z.get i + d.delta.get i)

/-- One step keeps every component finite or escaped, and makes an iterate finite exactly if it
was and nothing overflows. -/
theorem allFinite_step_iff {y' : Vector (Flushed α) n} {s' : State (Flushed α) n}
    (h : newton.walk system y₀ k = .ok (y, s))
    (hstep : (newton.step system y s).value = .ok (y', s'))
    (hm : maskFor newton.machine newton.projection n = .ok mask) (hy : Settled mask y) :
    Settled mask y' ∧ (Vec.allFinite y' = true ↔
      Vec.allFinite y = true ∧ ¬OverflowsAt newton system y₀ k) := by
  obtain ⟨mask', A, d, f, hm', hA, hd, rfl, -, -⟩ := value_step_eq_ok_iff.1 hstep
  obtain rfl : mask = mask' := Except.ok.inj (hm.symm.trans hm')
  have hsolves : newton.Solves system y s d := ⟨A, hA, hd⟩
  cases hu : d.usable with
  | false =>
    have hstay : advance mask y d = y := advance_of_unusable mask y hu
    have hno : ¬OverflowsAt newton system y₀ k := by
      rintro ⟨z, t, mask', d', i, hz, -, hd', hu', -⟩
      obtain ⟨rfl, rfl⟩ := Prod.mk.inj (Except.ok.inj (h.symm.trans hz))
      rw [hsolves.unique hd', hu'] at hu
      cases hu
    rw [hstay]
    exact ⟨hy, ⟨fun hf => ⟨hf, hno⟩, fun hf => hf.1⟩⟩
  | true =>
    have hentry := isFinite_advance_iff hu (allFinite_of_usable hd hu) hy
    refine ⟨fun i => (hentry i).2, ?_⟩
    rw [Vec.allFinite_eq_true_iff, Vec.allFinite_eq_true_iff]
    constructor
    · intro hf
      refine ⟨fun i => ((hentry i).1.1 (hf i)).1, ?_⟩
      rintro ⟨z, t, mask', d', i, hz, hm'', hd', -, hescapes⟩
      obtain ⟨rfl, rfl⟩ := Prod.mk.inj (Except.ok.inj (h.symm.trans hz))
      obtain rfl : mask = mask' := Except.ok.inj (hm.symm.trans hm'')
      obtain rfl := hsolves.unique hd'
      exact ((hentry i).1.1 (hf i)).2 hescapes
    · rintro ⟨hf, hno⟩ i
      exact (hentry i).1.2 ⟨hf i, fun he => hno ⟨y, s, mask, d, i, h, hm, hsolves, hu, he⟩⟩

/-- From a finite start, an iterate is finite exactly if no step before it overflows. -/
theorem allFinite_walk_iff (hy₀ : Vec.allFinite y₀ = true)
    (h : newton.walk system y₀ k = .ok (y, s)) :
    Vec.allFinite y = true ↔ ∀ j, j < k → ¬OverflowsAt newton system y₀ j := by
  suffices hboth :
      (∀ mask, maskFor newton.machine newton.projection n = .ok mask → Settled mask y) ∧
      (Vec.allFinite y = true ↔ ∀ j, j < k → ¬OverflowsAt newton system y₀ j) from hboth.2
  induction k generalizing y s with
  | zero =>
    obtain ⟨rfl, -⟩ := walk_zero_eq_ok_iff.1 h
    exact ⟨fun mask _ => settled_of_allFinite mask hy₀,
      ⟨fun _ j hj => absurd hj (Nat.not_lt_zero j), fun _ => hy₀⟩⟩
  | succ k ih =>
    obtain ⟨z, t, hz, hstep⟩ := walk_succ_eq_ok_iff.1 h
    obtain ⟨hsettled, hfin⟩ := ih hz
    obtain ⟨mask, -, -, -, hm, -⟩ := value_step_eq_ok_iff.1 hstep
    obtain ⟨hnext, hiff⟩ := allFinite_step_iff hz hstep hm (hsettled mask hm)
    refine ⟨fun mask' hm' => ?_, ?_⟩
    · obtain rfl : mask = mask' := Except.ok.inj (hm.symm.trans hm')
      exact hnext
    · rw [hiff, hfin]
      constructor
      · rintro ⟨hbefore, hlast⟩ j hj
        rcases Nat.lt_succ_iff_lt_or_eq.1 hj with hj | rfl
        · exact hbefore j hj
        · exact hlast
      · intro hno
        exact ⟨fun j hj => hno j (Nat.lt_succ_of_lt hj), hno k (Nat.lt_succ_self k)⟩

/-! ## Runs -/

/-- What an answer carries is the solution of the run. -/
theorem value_solve (newton : Newton (Flushed α)) (system : System (Flushed α) n)
    (y : Vector (Flushed α) n) : (solve newton system y).value =
      (newton.run system y).value.map Solution.answer :=
  congrArg Prod.fst (start_map Solution.answer (newton.run system y))

theorem solution_of_answer {solution : Solution (Flushed α) n}
    {breakdown : Breakdown (Flushed α) n} (h : solution.answer = .error breakdown) :
    breakdown.solution = solution := by
  unfold Solution.answer at h
  split at h
  · cases h
    rfl
  · cases h
    rfl
  · cases h

/-- From a finite start, an iterate of a run is finite exactly if no step before it overflows : no
sum of a component and its change is positive infinity, or negative infinity where it is not
clamped. The same holds of the value that the run returns, and of the one that the error of
an answer carries. -/
theorem finite_iff_no_overflow (newton : Newton (Flushed α)) (system : System (Flushed α) n)
    {y₀ : Vector (Flushed α) n} (hy₀ : Vec.allFinite y₀ = true) :
    (∀ k y s, Visits newton system y₀ k y s →
      (Vec.allFinite y = true ↔ ∀ j, j < k → ¬OverflowsAt newton system y₀ j)) ∧
    (∀ solution, (newton.run system y₀).value = .ok solution →
      ∃ K, solution.steps = newton.machine.counted K ∧ (Vec.allFinite solution.value = true ↔
        ∀ j, j < K → ¬OverflowsAt newton system y₀ j)) ∧
    (∀ breakdown, (solve newton system y₀).value = .ok (.error breakdown) →
      ∃ K, breakdown.solution.steps = newton.machine.counted K ∧
        (Vec.allFinite breakdown.solution.value = true ↔
          ∀ j, j < K → ¬OverflowsAt newton system y₀ j)) := by
  have hrun : ∀ solution, (newton.run system y₀).value = .ok solution →
      ∃ K, solution.steps = newton.machine.counted K ∧ (Vec.allFinite solution.value = true ↔
        ∀ j, j < K → ¬OverflowsAt newton system y₀ j) := by
    intro solution h
    obtain ⟨K, s, hvisit, hend, -⟩ := exists_visits_of_run h
    exact ⟨K, hvisit.steps_of_ending hend, allFinite_walk_iff hy₀ hvisit.walk⟩
  refine ⟨fun k y s h => allFinite_walk_iff hy₀ h.walk, hrun, fun breakdown h => ?_⟩
  rw [value_solve] at h
  cases hsolution : (newton.run system y₀).value with
  | error e =>
    rw [hsolution] at h
    cases h
  | ok solution =>
    rw [hsolution] at h
    rw [solution_of_answer (Except.ok.inj h)]
    exact hrun solution hsolution

end Formats

/-- From three, in the default configuration, the equation `y - 1 = 0` is left at a finite value,
and no step overflows. -/
theorem finite_unitEquation :
    Vec.allFinite (#v[⟨3⟩] : Vector Binary64 1) = true ∧
      ∃ solution, ((Solver.standard.newton Binary64).run unitEquation #v[⟨3⟩]).value =
          .ok solution ∧
        Vec.allFinite solution.value = true ∧
        ∃ K, solution.steps = (Solver.standard.newton Binary64).machine.counted K ∧
          ∀ j, j < K → ¬OverflowsAt (Solver.standard.newton Binary64) unitEquation #v[⟨3⟩] j := by
  have hstart : Vec.allFinite (#v[⟨3⟩] : Vector Binary64 1) = true := by decide +kernel
  have heval : ((Solver.standard.newton Binary64).runFor unitEquation 2 #v[⟨3⟩]).map
      (·.toOption.map fun r => Vec.allFinite r.value) = some (some true) := by decide +kernel
  obtain ⟨solution, hrun, hfin⟩ := exists_run_of_runFor heval
  obtain ⟨-, hreturned, -⟩ :=
    finite_iff_no_overflow (Solver.standard.newton Binary64) unitEquation hstart
  obtain ⟨K, hK, hiff⟩ := hreturned solution hrun
  exact ⟨hstart, solution, hrun, hfin, K, hK, hiff.1 hfin⟩

/-- From `10³⁰⁸`, in the default configuration, a finite step makes the iterate infinite, and the
error of the answer carries it. -/
theorem finite_iterates_fails :
    Solver.ofSettings {} = .ok Solver.standard ∧
      Vec.allFinite (#v[⟨1e308⟩] : Vector Binary64 1) = true ∧
      ∃ breakdown, (solve (Solver.standard.newton Binary64) distantRoot #v[⟨1e308⟩]).value =
          .ok (.error breakdown) ∧
        Vec.allFinite breakdown.solution.value = false := by
  have heval : ((Solver.standard.newton Binary64).runFor distantRoot 3 #v[⟨1e308⟩]).map
      (·.toOption.map fun r => match r.answer with
        | .error breakdown => some (Vec.allFinite breakdown.solution.value)
        | .ok _ => none) = some (some (some false)) := by decide +kernel
  refine ⟨rfl, by decide +kernel, ?_⟩
  obtain ⟨solution, hrun, hanswer⟩ := exists_run_of_runFor heval
  rw [value_solve, hrun]
  cases h : solution.answer with
  | ok answer =>
    rw [h] at hanswer
    cases hanswer
  | error breakdown =>
    rw [h] at hanswer
    exact ⟨breakdown, congrArg Except.ok h, Option.some.inj hanswer⟩

end Newton

end Stationary
