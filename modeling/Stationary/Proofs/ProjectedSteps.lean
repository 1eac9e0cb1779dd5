import Stationary.Proofs.Exact
import Stationary.Proofs.LoopHeads
import Stationary.Rotations

/-!
# Projected steps in exact arithmetic

In exact arithmetic a step that can be used is the Newton step of the textbooks : with the
Jacobian `J` and the residual `f` at the iterate `y` there is exactly one `u` with
`J (u - y) = -f`, and the next iterate is `u` with its marked components clamped at zero
(`Newton.ProjectedStep`). The residual is the one that the state stores, and it is the one at
the iterate (`Newton.Tracks`); the step is the only solution because elimination is exact
(`LinearStep.isSolution_iff_eq_delta`). So every iterate of a run is reached by such
steps (`Newton.steps_are_projected_newton`).
-/

set_option linter.unusedSectionVars false

namespace Stationary

open Matrix

namespace Newton

section Fields

variable {𝕜 : Type} {n : Nat} [ExactArithmetic 𝕜] [Decomposes 𝕜]

open Journaled

/-- There is exactly one `u` with `J(y) (u - y) = -F(y)`, and `y'` is `u` with the marked
components clamped at zero. -/
def ProjectedStep (newton : Newton 𝕜) (system : System 𝕜 n) (y y' : Vector 𝕜 n) : Prop :=
  ∃ mask A f u, maskFor newton.machine newton.projection n = .ok mask ∧
    system.jacobianMatrix y = .ok A ∧ system.residualVector y = .ok f ∧
    (∀ v : Vector 𝕜 n, A.toMatrix *ᵥ (v.get - y.get) = -f.get ↔ v = u) ∧
    ∀ i, y'.get i = if mask.get i then max (u.get i) 0 else u.get i

variable {newton : Newton 𝕜} {system : System 𝕜 n} {y₀ y y' : Vector 𝕜 n} {s s' : State 𝕜 n}
  {k : Nat}

/-- A linear step by elimination that can be used is the only solution, where no threshold is
negative. -/
theorem isSolution_iff_of_linearStep {A : SquareMatrix 𝕜 n} {b x : Vector 𝕜 n}
    {d : LinearStep 𝕜 n} (hlu : newton.linearMethod = .lu)
    (hr : ∀ r, newton.pivotRtol = .relative r → 0 ≤ r) (h : newton.linearStep A b = .ok d)
    (hu : d.usable = true) : IsSolution A b x ↔ x = d.delta := by
  rcases linearStep_eq_ok_iff.1 h with ⟨hls, -⟩ | ⟨-, r, hthreshold, rfl⟩
  · rw [hlu] at hls
    cases hls
  · refine LinearStep.isSolution_iff_eq_delta ?_ hu
    rcases hthreshold with ⟨-, rfl⟩ | hrelative
    · exact mul_nonneg (Nat.cast_nonneg n) ExactArithmetic.roundoff_nonneg
    · exact hr r hrelative

omit [Decomposes 𝕜] in
/-- If `d` is the only solution for the negated residual, `y + d` is the only `v` whose distance
from `y` solves the equations. -/
theorem mulVec_sub_iff {A : SquareMatrix 𝕜 n} {f v d : Vector 𝕜 n}
    (h : ∀ x, IsSolution A (Vec.neg f) x ↔ x = d) :
    A.toMatrix *ᵥ (v.get - y.get) = -f.get ↔ v = Vec.add y d := by
  have hdistance : (Vec.add v (Vec.neg y)).get = v.get - y.get := by
    ext i
    rw [Vec.get_add, Vec.get_neg, Pi.sub_apply, sub_eq_add_neg]
  have hright : (Vec.neg f).get = -f.get := by
    ext i
    rw [Vec.get_neg, Pi.neg_apply]
  rw [← hdistance, ← hright, ← isSolution_iff_mulVec, h]
  constructor
  · rintro rfl
    ext i hi
    simp [Vec.add, Vec.neg]
  · rintro rfl
    ext i hi
    simp [Vec.add, Vec.neg]

/-- A step from a place where the state holds the residual is a projected step, unless what it
solves for cannot be used; then it stays where it is. -/
theorem projected_or_eq_of_step (hlu : newton.linearMethod = .lu)
    (hr : ∀ r, newton.pivotRtol = .relative r → 0 ≤ r) (ht : Tracks newton.machine system y₀ k y s)
    (h : (newton.step system y s).value = .ok (y', s')) :
    (s'.stepFailed = false → newton.ProjectedStep system y y') ∧
      (s'.stepFailed = true → y' = y) := by
  obtain ⟨mask, A, d, f, hm, hA, hd, rfl, -, rfl⟩ := value_step_eq_ok_iff.1 h
  constructor
  · intro hs
    have hu : d.usable = true := by simpa [State.after] using hs
    refine ⟨mask, A, s.residual, Vec.add y d.delta, hm, hA, ht.residual, fun v => ?_, fun i => ?_⟩
    · exact mulVec_sub_iff fun x => isSolution_iff_of_linearStep hlu hr hd hu
    · rw [get_advance_of_usable mask y hu, Vec.get_add]
      rfl
  · intro hs
    have hu : d.usable = false := by simpa [State.after] using hs
    exact advance_of_unusable mask y hu

/-- Every place that a run visits is reached by projected steps. -/
theorem Visits.reached (h : Visits newton system y₀ k y s) (hlu : newton.linearMethod = .lu)
    (hr : ∀ r, newton.pivotRtol = .relative r → 0 ≤ r) :
    Relation.ReflTransGen (newton.ProjectedStep system) y₀ y := by
  induction h with
  | start _ _ => exact Relation.ReflTransGen.refl
  | @step k y y' s s' h _ _ hstep ih =>
    obtain ⟨hprojected, hstays⟩ := projected_or_eq_of_step hlu hr (tracks_walk h.walk) hstep
    cases hf : s'.stepFailed with
    | false => exact ih.tail (hprojected hf)
    | true =>
      rw [hstays hf]
      exact ih

/-- In exact arithmetic, by elimination and with no negative threshold, the next iterate of a run
is the projected step from the last one, unless the linear step cannot be used; then the run
stays where it is. So every iterate of a run, and the value that it returns, is
reached by projected steps. -/
theorem steps_are_projected_newton (newton : Newton 𝕜) (system : System 𝕜 n) (y₀ : Vector 𝕜 n)
    (hlu : newton.linearMethod = .lu) (hr : ∀ r, newton.pivotRtol = .relative r → 0 ≤ r) :
    (∀ k y s y' s', Visits newton system y₀ k y s → Visits newton system y₀ (k + 1) y' s' →
      (s'.stepFailed = false → newton.ProjectedStep system y y') ∧
        (s'.stepFailed = true → y' = y)) ∧
    (∀ k y s, Visits newton system y₀ k y s →
      Relation.ReflTransGen (newton.ProjectedStep system) y₀ y) ∧
    (∀ solution, (newton.run system y₀).value = .ok solution →
      Relation.ReflTransGen (newton.ProjectedStep system) y₀ solution.value) := by
  refine ⟨fun k y s y' s' h h' => ?_, fun k y s h => h.reached hlu hr, fun solution hrun => ?_⟩
  · cases h' with
    | step hbefore _ _ hstep =>
      obtain ⟨rfl, rfl⟩ := h.unique hbefore
      exact projected_or_eq_of_step hlu hr (tracks_walk h.walk) hstep
  · obtain ⟨k, s, hvisit, -⟩ := exists_visits_of_run hrun
    exact hvisit.reached hlu hr

end Fields

end Newton

/-- The rational numbers, with the root of numerator and denominator rounded down, and the unit
roundoff of binary64. -/
instance : ExactArithmetic ℚ where
  root := Rat.sqrt
  roundoff := 1 / 2 ^ 52
  roundoff_nonneg := by norm_num

instance : Binade ℚ where
  binade _ := 1

instance : Decomposes ℚ := ⟨svdByRotations⟩

namespace Newton

/-- The configuration that only names the tolerance `10⁻⁶`, over the rational numbers. -/
def rational : Newton ℚ where
  rtol := 0
  atol := 1 / 10 ^ 6
  maxSteps := 100
  projection := .text nonnegative
  linearMethod := .lu
  pivotRtol := .standard

/-- The equations `y₁ + 4 = 0` and `2 y₀ - 6 = 0`, whose first pivot is in the second row. -/
def exchangedEquations : System ℚ 2 :=
  .ofMaps (fun y => #v[y[1] + 4, 2 * y[0] - 6]) fun _ => #v[#v[0, 1], #v[2, 0]]

/-- From the origin the first step is a projected one : it leads to the root, with its negative
component clamped. -/
theorem steps_exchangedEquations :
    rational.linearMethod = .lu ∧ (∀ r, rational.pivotRtol = .relative r → 0 ≤ r) ∧
      ∃ y s, Visits rational exchangedEquations #v[0, 0] 1 y s ∧ y = #v[3, 0] ∧
        rational.ProjectedStep exchangedEquations #v[0, 0] y := by
  have hthreshold : ∀ r, rational.pivotRtol = .relative r → 0 ≤ r := by
    intro r hr
    cases hr
  have hinit : (rational.init exchangedEquations #v[0, 0]).value = .ok (.initial #v[4, -6]) := by
    refine value_init_eq_ok_iff.2 ⟨two_ne_zero, #v[4, -6], ?_, rfl, ⟨#v[true, true], rfl⟩, rfl⟩
    rw [exchangedEquations, System.residualVector_ofMaps]
    exact congrArg Except.ok (by decide +kernel)
  have hstart : Visits rational exchangedEquations #v[0, 0] 0 #v[0, 0] (.initial #v[4, -6]) :=
    .start hinit rfl
  have hraised : (rational.status (State.initial #v[4, -6])).raised = false := by decide +kernel
  have heval : ((rational.step exchangedEquations #v[0, 0]
      (.initial #v[4, -6])).value.toOption.map fun p => (p.1, p.2.stepFailed)) =
        some (#v[3, 0], false) := by decide +kernel
  cases hstep : (rational.step exchangedEquations #v[0, 0] (.initial #v[4, -6])).value with
  | error e =>
    rw [hstep] at heval
    cases heval
  | ok p =>
    rw [hstep] at heval
    obtain ⟨hy, hs⟩ := Prod.mk.inj (Option.some.inj heval)
    have hvisit : Visits rational exchangedEquations #v[0, 0] 1 p.1 p.2 :=
      .step hstart (by decide) hraised hstep
    obtain ⟨hprojected, -⟩ := (steps_are_projected_newton rational exchangedEquations #v[0, 0]
      rfl hthreshold).1 0 _ _ _ _ hstart hvisit
    exact ⟨rfl, hthreshold, p.1, p.2, hvisit, hy, hprojected hs⟩

end Newton

end Stationary
