import Stationary.Proofs.Masks
import Stationary.Proofs.Recasting

/-!
# Relabelled unknowns

The unknowns of a system can be numbered in another way : unknown `i` of the new system is unknown
`σ i` of the old one. The residual reads its unknowns back, every row of the Jacobian is
permuted (`Recasting.relabelling`), and so is a policy that has a tag for each component
(`Setting.relabel`); a policy that is a text treats all components alike and stays.

The permutation of the columns changes every pivot, but not whether the matrix is regular, and
the solution of the linear equations is permuted as the columns are. The mask of the relabelled
policy is the permuted one (`Setting.maskFor_relabel`), so it clamps the same unknowns.
The residual is the same vector, and with it norms and flags.
-/

set_option linter.unusedSectionVars false

namespace Stationary

open Journaled

variable {β : Type} {n : Nat}

/-! ## Permuted vectors -/

namespace Vec

/-- The vector with entry `σ i` of `v` at place `i`. -/
def permute (σ : Equiv.Perm (Fin n)) (v : Vector β n) : Vector β n :=
  Vector.ofFn fun i => v.get (σ i)

@[simp] theorem get_permute (σ : Equiv.Perm (Fin n)) (v : Vector β n) (i : Fin n) :
    (permute σ v).get i = v.get (σ i) :=
  Vector.get_ofFn _ i

/-- Permuted vectors can be permuted back. -/
def permuteEquiv (σ : Equiv.Perm (Fin n)) : Vector β n ≃ Vector β n where
  toFun := permute σ
  invFun := permute σ.symm
  left_inv v := ext_get fun i => by simp
  right_inv v := ext_get fun i => by simp

end Vec

/-! ## Relabelled policies -/

namespace Setting

/-- The policy for permuted components : tags are permuted, if there are `n` of them, and any other
policy stays. -/
def relabel (σ : Equiv.Perm (Fin n)) (policy : Setting) : Setting :=
  match policy.tags? with
  | some items =>
    if h : items.length = n then .tuple (List.ofFn fun i => items.get ((σ i).cast h.symm))
    else policy
  | none => policy

end Setting

/-! ## Masks of relabelled policies -/

namespace Setting

variable {machine : Machine} {policy : Setting} {items : List Setting}
  {mask mask' : Vector Bool n}

theorem exists_replicate_of_maskOfText {s : String} {k : Int} {m : List Bool}
    (h : maskOfText machine s k = .ok m) : ∃ b, m = List.replicate k.toNat b := by
  unfold maskOfText uniformMask at h
  split_ifs at h
  · exact ⟨true, (Except.ok.inj h).symm⟩
  · exact ⟨false, (Except.ok.inj h).symm⟩

/-- A policy without tags that has a mask treats all components alike. -/
theorem permute_mask_of_tags_eq_none (h : policy.tags? = none)
    (hm : maskFor machine policy n = .ok mask) (σ : Equiv.Perm (Fin n)) :
    Vec.permute σ mask = mask := by
  rw [maskFor_eq_ok_iff] at hm
  obtain ⟨b, hb⟩ : ∃ b, mask.toList = List.replicate n b := by
    cases policy with
    | text s => exact exists_replicate_of_maskOfText hm
    | _ =>
      rw [projectionMask_of_notASequence (by simp) h] at hm
      cases hm
  have hget : ∀ i, mask.get i = b := by
    intro i
    have hmem : mask.get i ∈ mask.toList := List.getElem_mem (by simp)
    exact List.eq_of_mem_replicate (hb ▸ hmem)
  exact Vec.ext_get fun i => by rw [Vec.get_permute, hget, hget]

/-- The relabelled policy has the permuted mask. -/
theorem maskFor_relabel (hm : maskFor machine policy n = .ok mask) (σ : Equiv.Perm (Fin n)) :
    maskFor machine (policy.relabel σ) n = .ok (Vec.permute σ mask) := by
  unfold relabel
  split
  · rename_i items htags
    split
    · rename_i hn
      have hlen : (List.ofFn fun i => items.get ((σ i).cast hn.symm)).length = n := by simp
      rw [maskFor_eq_ok_iff_of_tags htags hn] at hm
      rw [maskFor_eq_ok_iff_of_tags rfl hlen]
      intro i
      rw [Vec.get_permute, ← hm (σ i)]
      simp
    · rename_i hn
      rw [maskFor_eq_ok_iff, projectionMask_eq_ok_iff htags, maskOfSequence_eq_ok_iff] at hm
      exact absurd (Int.ofNat.inj hm.1) hn
  · rename_i htags
    rw [permute_mask_of_tags_eq_none htags hm]
    exact hm

/-- If the relabelled policy has a mask, so has the policy. -/
theorem exists_maskFor_of_relabel {σ : Equiv.Perm (Fin n)}
    (h : maskFor machine (policy.relabel σ) n = .ok mask') :
    ∃ mask, maskFor machine policy n = .ok mask := by
  unfold relabel at h
  split at h
  · rename_i items htags
    split at h
    · rename_i hn
      have hlen : (List.ofFn fun i => items.get ((σ i).cast hn.symm)).length = n := by simp
      rw [maskFor_eq_ok_iff_of_tags rfl hlen] at h
      refine ⟨Vec.permute σ.symm mask', (maskFor_eq_ok_iff_of_tags htags hn).2 fun i => ?_⟩
      rw [Vec.get_permute, ← h (σ.symm i)]
      simp
    · exact ⟨mask', h⟩
  · exact ⟨mask', h⟩

end Setting

/-! ## Relabelled systems -/

section Fields

variable {𝕜 : Type} [ExactArithmetic 𝕜]

/-- A sum over permuted places is the same sum. -/
theorem Vec.dot_permute (σ : Equiv.Perm (Fin n)) (u v : Vector 𝕜 n) :
    Vec.dot (permute σ u) (permute σ v) = Vec.dot u v := by
  rw [dot_eq, dot_eq]
  unfold dotProduct
  simp only [get_permute]
  exact Equiv.sum_comp σ fun i => u.get i * v.get i

/-- Unknown `i` is unknown `σ i` of the old system. -/
def Recasting.relabelling (σ : Equiv.Perm (Fin n)) : Recasting 𝕜 n where
  unknowns := Vec.permuteEquiv σ
  residual := id
  jacobian A := A.map (Vec.permute σ)
  unknowns_add u v := Vec.ext_get fun i => by
    show (Vec.permute σ (Vec.add u v)).get i = (Vec.add (Vec.permute σ u) (Vec.permute σ v)).get i
    rw [Vec.get_permute, Vec.get_add, Vec.get_add, Vec.get_permute, Vec.get_permute]
  regular_iff A := by
    have hcolumns : SquareMatrix.toMatrix (A.map (Vec.permute σ)) =
        (SquareMatrix.toMatrix A).submatrix id σ := by
      ext i j
      show ((A.map (Vec.permute σ)).get i).get j = (A.get i).get (σ j)
      rw [Vec.get_map, Vec.get_permute]
    have hsign : ((Equiv.Perm.sign σ : ℤ) : 𝕜) ≠ 0 := by
      rcases Int.units_eq_one_or (Equiv.Perm.sign σ) with h | h <;> simp [h]
    rw [hcolumns, Matrix.det_permute', mul_ne_zero_iff, and_iff_right hsign]
  isSolution A r x h := fun i => by
    rw [Vec.get_map]
    exact (Vec.dot_permute σ _ _).trans (h i)

/-- The mask of the relabelled policy clamps the same unknowns. -/
theorem masksCorrespond_permute (σ : Equiv.Perm (Fin n)) (mask : Vector Bool n) :
    Newton.MasksCorrespond (Recasting.relabelling σ : Recasting 𝕜 n) mask
      (Vec.permute σ mask) := by
  intro v
  refine Vec.ext_get fun i => ?_
  show (clamp (Vec.permute σ mask) (Vec.permute σ v)).get i =
    (Vec.permute σ (clamp mask v)).get i
  rw [get_clamp, Vec.get_permute, Vec.get_permute, Vec.get_permute, get_clamp]

namespace Newton

variable [Decomposes 𝕜]

/-- In exact arithmetic, by elimination and with the threshold zero, unknowns may be numbered in any
way : the run from the permuted start, with the policy permuted, has a solution if the old one
does, with the same outcome, the same steps and norm, and the permuted value. If the system has
values of the right shapes and a start, and the tolerances can be used, it has one, unless it
goes on for ever because the counter cannot reach the budget. -/
theorem relabelled_unknowns_agree (newton : Newton 𝕜) (system : System 𝕜 n) (y₀ : Vector 𝕜 n)
    (h : newton.EliminatesExactly) (σ : Equiv.Perm (Fin n)) :
    ((newton.withPolicy (newton.projection.relabel σ)).run (system.recast (.relabelling σ))
        (Vec.permute σ y₀)).value.toOption =
      (newton.run system y₀).value.toOption.map
        (fun s => { s with value := Vec.permute σ s.value }) ∧
    ∀ s₀, system.IsSquare → (newton.init system y₀).value = .ok s₀ →
      newton.checkTolerances = .ok () →
      (∃ solution, (newton.run system y₀).value = .ok solution) ∨
        newton.GoesOn system y₀ ∧ ¬newton.machine.Counts newton.maxSteps := by
  refine ⟨?_, fun s₀ hsq h₀ ht => exists_solution_or_goesOn hsq h₀ ht h.checkPivots⟩
  cases h₀ : (newton.init system y₀).value with
  | ok s₀ =>
    obtain ⟨-, -, -, -, ⟨mask, hm⟩, -⟩ := value_init_eq_ok_iff.1 h₀
    have hrun := value_run_recast h h₀ hm (Setting.maskFor_relabel hm σ)
      (masksCorrespond_permute σ mask) fun _ => rfl
    refine (congrArg Except.toOption hrun).trans ?_
    cases (newton.run system y₀).value <;> rfl
  | error e =>
    have hfails : ∀ s, ((newton.withPolicy (newton.projection.relabel σ)).init
        (system.recast (.relabelling σ)) (Vec.permute σ y₀)).value ≠ .ok s := by
      intro s h₀'
      obtain ⟨-, -, -, -, ⟨mask', hm'⟩, -⟩ := value_init_eq_ok_iff.1 h₀'
      obtain ⟨mask, hm⟩ := Setting.exists_maskFor_of_relabel hm'
      obtain ⟨s₀, hs₀⟩ := exists_init_of_recast h₀' hm
      rw [h₀] at hs₀
      cases hs₀
    cases h₀' : ((newton.withPolicy (newton.projection.relabel σ)).init
        (system.recast (.relabelling σ)) (Vec.permute σ y₀)).value with
    | ok s => exact absurd h₀' (hfails s)
    | error e' =>
      rw [value_run_eq_error_iff.2 (Or.inl h₀), value_run_eq_error_iff.2 (Or.inl h₀')]
      rfl

end Newton

end Fields

namespace Newton

/-- The equations `y₁ + 4 = 0`, `2 y₀ - 6 = 0` and `y₂ - y₀ - 1 = 0`. -/
def chainEquations : System ℚ 3 :=
  .ofMaps (fun y => #v[y[1] + 4, 2 * y[0] - 6, y[2] - y[0] - 1])
    fun _ => #v[#v[0, 1, 0], #v[2, 0, 0], #v[-1, 0, 1]]

/-- Three steps, with the unknown in the middle clamped. -/
def middleClamped : Newton ℚ :=
  { exactRational with maxSteps := 3, projection := .tuple [.int 0, .int 1, .int 0] }

/-- With the unknowns in the order second, third, first, and the tag of the second one in the first
place, the run to `(3, 0, 4)` becomes one to `(0, 4, 3)`. -/
theorem run_relabelled_chainEquations :
    middleClamped.EliminatesExactly ∧ ∃ solution,
      (middleClamped.run chainEquations #v[1, 2, 3]).value = .ok solution ∧
      solution.value = #v[3, 0, 4] ∧ solution.steps = 3 ∧
      ((middleClamped.withPolicy (middleClamped.projection.relabel (finRotate 3))).run
        (chainEquations.recast (.relabelling (finRotate 3))) #v[2, 3, 1]).value =
          .ok { solution with value := #v[0, 4, 3] } := by
  have hexact : middleClamped.EliminatesExactly := ⟨rfl, rfl⟩
  have hsq : chainEquations.IsSquare := System.isSquare_ofMaps _ _
  have heval : (middleClamped.runFor chainEquations 4 #v[1, 2, 3]).map
      (·.toOption.map fun s => (s.value, s.steps)) = some (some (#v[3, 0, 4], 3)) := by
    decide +kernel
  have hinit : ∃ s₀, (middleClamped.init chainEquations #v[1, 2, 3]).value = .ok s₀ :=
    ⟨_, value_init_eq_ok_iff.2 ⟨three_ne_zero, _, System.residualVector_ofMaps _ _ _, rfl,
      ⟨#v[false, true, false], rfl⟩, rfl⟩⟩
  obtain ⟨s₀, h₀⟩ := hinit
  obtain ⟨solution, hrun, hend⟩ := exists_run_of_runFor heval
  obtain ⟨hvalue, hsteps⟩ := Prod.mk.inj hend
  obtain ⟨hrelabelled, -⟩ := relabelled_unknowns_agree middleClamped chainEquations
    #v[1, 2, 3] hexact (finRotate 3)
  rw [hrun] at hrelabelled
  have hstart : Vec.permute (finRotate 3) #v[(1 : ℚ), 2, 3] = #v[2, 3, 1] := by decide +kernel
  have hend : Vec.permute (finRotate 3) solution.value = #v[0, 4, 3] := by
    rw [hvalue]
    decide +kernel
  refine ⟨hexact, solution, hrun, hvalue, hsteps, ?_⟩
  rw [hstart] at hrelabelled
  cases hrun' : ((middleClamped.withPolicy (middleClamped.projection.relabel (finRotate 3))).run
      (chainEquations.recast (.relabelling (finRotate 3))) #v[2, 3, 1]).value with
  | error e =>
    rw [hrun'] at hrelabelled
    cases hrelabelled
  | ok solution' =>
    rw [hrun'] at hrelabelled
    rw [Option.some.inj hrelabelled, ← hend]

end Newton

end Stationary
