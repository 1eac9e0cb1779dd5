import Stationary.Proofs.Derivatives
import Stationary.Proofs.Recording

/-!
# The Lagrangian of the reference problem

The residual of the reference problem asks for a stationary point of the Lagrangian, and all that
the problem computes comes from this one function. It is a polynomial of third order, so its
expansion around a point ends with one term (`Kkt.lagrangian_add`), whose first part is the product
with the residual and whose second part is the quadratic form of the Jacobian. Over the real numbers
the residual is its gradient and the Jacobian the derivative of the residual
(`Kkt.residual_is_gradient`). Forward differentiation finds the same matrix row by row
(`Kkt.has_residual`), so the error of the Jacobian is zero.

A caller states the problem with literals and evaluates it at tensors. At six unknowns, with two
costs and data that fit, objective, constraints and products are those of the problem
(`KktData.problem_eq_ok_iff`).
-/

set_option linter.unusedSectionVars false

namespace Stationary

open Matrix

namespace Kkt

/-! ## Ordered fields -/

section Fields

variable {𝕜 : Type} [ExactArithmetic 𝕜]

theorem mulVec_jacobian (y : Vector 𝕜 6) (h : Fin 6 → 𝕜) : (jacobian y).toMatrix *ᵥ h =
    ![(y.get 5 + y.get 5) * h 0 + h 2 - h 3 + (y.get 0 + y.get 0) * h 5,
      (y.get 5 + y.get 5) * h 1 + h 2 - h 4 + (y.get 1 + y.get 1) * h 5,
      h 0 + h 1, -h 0, -h 1, (y.get 0 + y.get 0) * h 0 + (y.get 1 + y.get 1) * h 1] := by
  funext i
  fin_cases i <;>
    simp [mulVec, dotProduct, Fin.sum_univ_six, SquareMatrix.toMatrix, jacobian, Vector.get] <;>
    ring

/-- Around every point the Lagrangian is its value, the product with the residual, half the
quadratic form of the Jacobian, and one term of third order. -/
theorem lagrangian_add (p : Kkt 𝕜) (y h : Vector 𝕜 6) :
    p.lagrangian (Vec.add y h) = p.lagrangian y + Vec.dot (p.residual y) h +
      1 / 2 * (h.get ⬝ᵥ (jacobian y).toMatrix *ᵥ h.get) +
      h.get 5 * (h.get 0 ^ 2 + h.get 1 ^ 2) := by
  simp [Vec.dot_eq, mulVec_jacobian, dotProduct, Fin.sum_univ_succ, Vector.get, Vec.add, lagrangian,
    objective, cost, constraints, inequalities, residual]
  ring

theorem isSymm_jacobian (y : Vector 𝕜 6) : (jacobian y).toMatrix.IsSymm := by
  ext i j
  fin_cases i <;> fin_cases j <;> rfl

theorem extract_eq {α : Type} (v : Vector α 6) : v.extract 2 5 = #v[v.get 2, v.get 3, v.get 4] := by
  ext i hi
  have hi3 : i < 3 := hi
  interval_cases i <;> simp [Vector.get]

/-- The products of multipliers and inequalities are those of multipliers and rows. -/
theorem complementarity_eq (p : Kkt 𝕜) (y : Vector 𝕜 6) : p.complementarity y =
    Vector.zipWith (· * ·) (y.extract 2 5) ((p.residual y).extract 2 5) := by
  rw [extract_eq, extract_eq]
  rfl

end Fields

section Elementary

variable {𝕜 : Type} [ExactElementary 𝕜]

/-- The data as jets without derivatives. -/
def constants (p : Kkt 𝕜) : Kkt (Jet 𝕜) where
  cost₁ := .constant p.cost₁
  cost₂ := .constant p.cost₂
  capacity := .constant p.capacity
  radiusSq := .constant p.radiusSq

/-- Over jets the components of the residual have the rows of the Jacobian as gradients. -/
theorem has_residual (p : Kkt 𝕜) (y : Vector 𝕜 6) (i : Fin 6) :
    ((p.constants.residual (Jet.unknowns y)).get i).Has ((p.residual y).get i)
      ((jacobian y).get i).get := by
  have hx := Jet.has_unknowns y
  have hc : ∀ c : 𝕜, (Jet.constant c).Has c (0 : Fin 6 → 𝕜) := Jet.has_constant
  fin_cases i
  · refine ((((hc p.cost₁).add (hx 2)).sub (hx 3)).add
      (((hx 5).add (hx 5)).mul (hx 0))).of_gradient fun j => ?_
    fin_cases j <;> simp [jacobian, Vector.get, Pi.single_apply, add_mul]
  · refine ((((hc p.cost₂).add (hx 2)).sub (hx 4)).add
      (((hx 5).add (hx 5)).mul (hx 1))).of_gradient fun j => ?_
    fin_cases j <;> simp [jacobian, Vector.get, Pi.single_apply, add_mul]
  · refine (((hx 0).add (hx 1)).sub (hc p.capacity)).of_gradient fun j => ?_
    fin_cases j <;> simp [jacobian, Vector.get]
  · refine (hx 0).neg.of_gradient fun j => ?_
    fin_cases j <;> simp [jacobian, Vector.get]
  · refine (hx 1).neg.of_gradient fun j => ?_
    fin_cases j <;> simp [jacobian, Vector.get]
  · refine ((((hx 0).mul (hx 0)).add ((hx 1).mul (hx 1))).sub (hc p.radiusSq)).of_gradient
      fun j => ?_
    fin_cases j <;> simp [jacobian, Vector.get, Pi.single_apply]

/-- Six unknowns are one column. -/
theorem columnwise_residual [Inhabited 𝕜] (p : Kkt 𝕜) (y : Vector 𝕜 6) :
    KktData.columnwise p.constants.residual (.ofVector (Jet.unknowns y)) =
      .ok (.ofVector (p.constants.residual (Jet.unknowns y))) := by
  unfold KktData.columnwise
  rw [Tensor.toVector?_ofVector]

end Elementary

/-! ## Real numbers -/

/-- The residual is the gradient of the Lagrangian. -/
theorem hasFDerivAt_lagrangian (p : Kkt ℝ) (y : Vector ℝ 6) :
    HasFDerivAt (fun v : Fin 6 → ℝ => p.lagrangian (.ofFn v))
      (dotProductBilin ℝ ℝ (p.residual y).get).toContinuousLinearMap y.get := by
  have hx : ∀ i, HasFDerivAt (fun v : Fin 6 → ℝ => v i)
      (ContinuousLinearMap.proj i : (Fin 6 → ℝ) →L[ℝ] ℝ) y.get :=
    fun i => hasFDerivAt_apply i y.get
  have hvalue : (fun v : Fin 6 → ℝ => p.lagrangian (.ofFn v)) = fun v =>
      p.cost₁ * v 0 + p.cost₂ * v 1 +
        (v 2 * (v 0 + v 1 - p.capacity) + v 3 * -v 0 + v 4 * -v 1) +
        v 5 * (v 0 * v 0 + v 1 * v 1 - p.radiusSq) := by
    funext v
    simp [lagrangian, Vec.dot_eq, dotProduct, Fin.sum_univ_three, Vector.get, objective, cost,
      constraints, inequalities]
  rw [hvalue]
  refine (((((hx 0).const_mul _).add ((hx 1).const_mul _)).add
    ((((hx 2).mul (((hx 0).add (hx 1)).sub_const _)).add
    ((hx 3).mul (hx 0).neg)).add ((hx 4).mul (hx 1).neg))).add ((hx 5).mul ((((hx 0).mul (hx 0)).add
      ((hx 1).mul (hx 1))).sub_const _))).congr_fderiv ?_
  refine ContinuousLinearMap.ext fun h => ?_
  simp [dotProduct, Fin.sum_univ_six, Vector.get, residual]
  ring

/-- The Jacobian is the derivative of the residual. -/
theorem hasFDerivAt_residual (p : Kkt ℝ) (y : Vector ℝ 6) :
    HasFDerivAt (fun v : Fin 6 → ℝ => (p.residual (.ofFn v)).get)
      (jacobian y).toMatrix.mulVecLin.toContinuousLinearMap y.get := by
  have hx : ∀ i, HasFDerivAt (fun v : Fin 6 → ℝ => v i)
      (ContinuousLinearMap.proj i : (Fin 6 → ℝ) →L[ℝ] ℝ) y.get :=
    fun i => hasFDerivAt_apply i y.get
  have hvalue : (fun v : Fin 6 → ℝ => (p.residual (.ofFn v)).get) = fun v =>
      ![p.cost₁ + v 2 - v 3 + (v 5 + v 5) * v 0, p.cost₂ + v 2 - v 4 + (v 5 + v 5) * v 1,
        v 0 + v 1 - p.capacity, -v 0, -v 1, v 0 * v 0 + v 1 * v 1 - p.radiusSq] := by
    funext v i
    fin_cases i <;> simp [residual, Vector.get]
  rw [hvalue, hasFDerivAt_pi']
  intro i
  fin_cases i
  · refine ((((hx 2).const_add _).sub (hx 3)).add (((hx 5).add (hx 5)).mul (hx 0))).congr_fderiv
      (ContinuousLinearMap.ext fun h => ?_)
    simp [mulVec_jacobian, Vector.get]
    ring
  · refine ((((hx 2).const_add _).sub (hx 4)).add (((hx 5).add (hx 5)).mul (hx 1))).congr_fderiv
      (ContinuousLinearMap.ext fun h => ?_)
    simp [mulVec_jacobian, Vector.get]
    ring
  · refine (((hx 0).add (hx 1)).sub_const _).congr_fderiv (ContinuousLinearMap.ext fun h => ?_)
    simp [mulVec_jacobian]
  · refine (hx 0).neg.congr_fderiv (ContinuousLinearMap.ext fun h => ?_)
    simp [mulVec_jacobian]
  · refine (hx 1).neg.congr_fderiv (ContinuousLinearMap.ext fun h => ?_)
    simp [mulVec_jacobian]
  · refine ((((hx 0).mul (hx 0)).add ((hx 1).mul (hx 1))).sub_const _).congr_fderiv
      (ContinuousLinearMap.ext fun h => ?_)
    simp [mulVec_jacobian, Vector.get]
    ring

/-- The residual of the reference problem is the gradient of its Lagrangian, with all six rows, and
the Jacobian is symmetric and the derivative of the residual, so that its error is zero. Around
every point the Lagrangian is given by both but for one term of third order. The products of
multipliers and inequalities are those of multipliers and rows of the residual. -/
theorem residual_is_gradient (p : Kkt ℝ) (y : Vector ℝ 6) :
    (∀ h : Vector ℝ 6, p.lagrangian (Vec.add y h) = p.lagrangian y + Vec.dot (p.residual y) h +
      1 / 2 * (h.get ⬝ᵥ (jacobian y).toMatrix *ᵥ h.get) +
      h.get 5 * (h.get 0 ^ 2 + h.get 1 ^ 2)) ∧
    HasFDerivAt (fun v : Fin 6 → ℝ => p.lagrangian (.ofFn v))
      (dotProductBilin ℝ ℝ (p.residual y).get).toContinuousLinearMap y.get ∧
    HasFDerivAt (fun v : Fin 6 → ℝ => (p.residual (.ofFn v)).get)
      (jacobian y).toMatrix.mulVecLin.toContinuousLinearMap y.get ∧
    (jacobian y).toMatrix.IsSymm ∧
    derivative (KktData.columnwise p.constants.residual) (.ofVector y) =
      .ok (.ofMatrix (jacobian y)) ∧
    jacobianErrorOf (KktData.columnwise p.constants.residual) KktData.jacobian (.ofVector y) =
      .ok 0 ∧
    p.complementarity y = Vector.zipWith (· * ·) (y.extract 2 5) ((p.residual y).extract 2 5) :=
  ⟨p.lagrangian_add y, p.hasFDerivAt_lagrangian y, p.hasFDerivAt_residual y, isSymm_jacobian y,
    derivative_ofVector (columnwise_residual p y) (p.has_residual y),
    jacobianErrorOf_eq_zero (by decide) (columnwise_residual p y) (p.has_residual y)
      (KktData.jacobian_ofVector ExactElementary.uniformKind y), p.complementarity_eq y⟩

end Kkt

/-! ## The problem as a caller states it -/

namespace KktData

section Diagnostics

variable {α : Type} [Elementary α] {d : KktData} {p : Kkt α}

/-- There are two costs, and they fit. -/
theorem withCosts_eq_ok_iff : d.withCosts = .ok p ↔
    ∃ c₁ c₂ a b, d.cost = [c₁, c₂] ∧ datum c₁ = .ok a ∧ datum c₂ = .ok b ∧ p = ⟨a, b, 0, 0⟩ := by
  unfold withCosts
  match d.cost with
  | [] => simp [expectValues, Except.map]
  | [_] => simp [expectValues, Except.map]
  | [c₁, c₂] =>
    show (datum c₁).bind (fun a => (datum c₂).bind fun b => .ok ⟨a, b, 0, 0⟩) = .ok p ↔ _
    simp only [Journaled.bind_eq_ok_iff, Except.ok.injEq]
    constructor
    · rintro ⟨a, h₁, b, h₂, hp⟩
      exact ⟨c₁, c₂, a, b, rfl, h₁, h₂, hp.symm⟩
    · rintro ⟨_, _, a, b, hcost, h₁, h₂, hp⟩
      cases hcost
      exact ⟨a, h₁, b, h₂, hp.symm⟩
  | _ :: _ :: _ :: _ => simp [expectValues, Except.map]

/-- The problem is made of the data, and all of them fit. -/
theorem problem_eq_ok_iff : d.problem = .ok p ↔ ∃ c₁ c₂, d.cost = [c₁, c₂] ∧
    datum c₁ = .ok p.cost₁ ∧ datum c₂ = .ok p.cost₂ ∧ datum d.capacity = .ok p.capacity ∧
      datum d.radiusSq = .ok p.radiusSq := by
  have hbinds : d.problem = d.withCosts.bind fun q : Kkt α =>
      (datum d.capacity).bind fun capacity => (datum d.radiusSq).bind fun radiusSq =>
        .ok ⟨q.cost₁, q.cost₂, capacity, radiusSq⟩ := rfl
  simp only [hbinds, Journaled.bind_eq_ok_iff, withCosts_eq_ok_iff]
  constructor
  · rintro ⟨q, ⟨c₁, c₂, a, b, hcost, h₁, h₂, rfl⟩, capacity, h₃, radiusSq, h₄, hp⟩
    cases hp
    exact ⟨c₁, c₂, hcost, h₁, h₂, h₃, h₄⟩
  · rintro ⟨c₁, c₂, hcost, h₁, h₂, h₃, h₄⟩
    exact ⟨_, ⟨c₁, c₂, _, _, hcost, h₁, h₂, rfl⟩, _, h₃, _, h₄, rfl⟩

variable [Inhabited α]

theorem objective_ofVector (hp : d.problem = .ok p) (y : Vector α 6) :
    d.objective (.ofVector y) = .ok (.scalar (p.objective y)) := by
  obtain ⟨c₁, c₂, hcost, h₁, h₂, -⟩ := problem_eq_ok_iff.1 hp
  have hcosts := withCosts_eq_ok_iff.2 ⟨c₁, c₂, p.cost₁, p.cost₂, hcost, h₁, h₂, rfl⟩
  unfold objective
  simp only [hcosts, component_ofVector, Nat.ofNat_pos, Nat.one_lt_ofNat, bind, Except.bind,
    combined_scalar]
  rfl

theorem constraints_ofVector (h : UniformKind α) (hp : d.problem = .ok p) (y : Vector α 6) :
    d.constraints (.ofVector y) = .ok (.ofVector (p.constraints y)) := by
  obtain ⟨-, -, -, -, -, hcapacity, -⟩ := problem_eq_ok_iff.1 hp
  have hdata : d.withCapacity = .ok (⟨0, 0, p.capacity, 0⟩ : Kkt α) := by
    unfold withCapacity
    rw [hcapacity]
    rfl
  unfold constraints
  simp only [hdata, component_ofVector, Nat.ofNat_pos, Nat.one_lt_ofNat, bind, Except.bind,
    combined_scalar]
  exact stackAlike_scalars h _ _ _

theorem complementarity_ofVector (h : UniformKind α) (hp : d.problem = .ok p) (y : Vector α 6) :
    d.complementarity (.ofVector y) = .ok (.ofVector (p.complementarity y)) := by
  unfold complementarity
  rw [slice?_ofVector y (by decide) (by decide), Kkt.extract_eq, constraints_ofVector h hp y]
  exact combined_ofVector (· * ·) #v[y[2], y[3], y[4]] (p.constraints y)

end Diagnostics

variable {𝕜 : Type} [ExactElementary 𝕜] {d : KktData} {p : Kkt 𝕜}

theorem datum_jet (c : Literal) : (datum c : Except Fault (Jet 𝕜)) = (datum c).map .constant := by
  unfold datum
  split
  · cases c <;> rfl
  · rfl

/-- Over jets the data are constants. -/
theorem problem_constants (hp : d.problem = .ok p) :
    (d.problem : Except Fault (Kkt (Jet 𝕜))) = .ok p.constants := by
  obtain ⟨c₁, c₂, hcost, h₁, h₂, h₃, h₄⟩ := problem_eq_ok_iff.1 hp
  refine problem_eq_ok_iff.2 ⟨c₁, c₂, hcost, ?_, ?_, ?_, ?_⟩
  · rw [datum_jet, h₁]
    rfl
  · rw [datum_jet, h₂]
    rfl
  · rw [datum_jet, h₃]
    rfl
  · rw [datum_jet, h₄]
    rfl

/-- The Jacobian that a caller gets has the error zero. -/
theorem jacobianErrorOf_residual [Inhabited 𝕜] (hp : d.problem = .ok p) (y : Vector 𝕜 6) :
    jacobianErrorOf d.residual jacobian (.ofVector y) = .ok 0 :=
  jacobianErrorOf_eq_zero (by decide)
    (residual_ofVector (Jet.uniformKind ExactElementary.uniformKind) (problem_constants hp) _)
    (p.has_residual y) (jacobian_ofVector ExactElementary.uniformKind y)

end KktData

end Stationary
