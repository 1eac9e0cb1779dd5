import Mathlib.Logic.Basic
import Stationary.Configuration
import Stationary.Proofs.Masks

/-!
# Misfits

A run that has no solution has a cause. Most causes are misfits (`Failure.isMisfit`) : a shape is
not the one that the number of unknowns asks for, or the policy names no mask for it. What a
solver keeps as its policy is a text or a tuple (`Solver.storedPolicy_eq_ok`), and such a
policy is a misfit or resolved, unless it is a text and there are more components than the
memory can hold (`isMisfit_or_isExceeded_of_maskFor`).

A system that never faults has tensors as values everywhere, of whatever shapes
(`System.NeverFaults`). Its values then fail by their shapes only, and whether they do is
said by these shapes. The shape of its Jacobian may still not be known in advance, and this may
be for want of numbers only or not (`System.NeedsOnlyValues`). With fixed shapes
(`System.FixedShapes`) one admissible start is enough for all values to have the right ones
(`Newton.isSquare_of_init`).
-/

set_option linter.unusedSectionVars false

namespace Stationary

open Journaled

/-! ## Policies -/

/-- The policy names no mask for its number of components. -/
def PolicyError.isMisfit : PolicyError → Bool
  | unknownPolicy _ => true
  | wrongLength _ _ => true
  | invalidTag _ => true
  | ambiguousTag _ _ => true
  | _ => false

/-- A shape or the policy does not fit the number of unknowns. -/
def Failure.isMisfit : Failure → Bool
  | stateShape _ => true
  | residualShape _ _ => true
  | jacobianShape _ _ => true
  | policy e => e.isMisfit
  | _ => false

theorem isMisfit_of_readTag {t : Setting} {e : PolicyError} (h : readTag t = .error e) :
    e.isMisfit = true := by
  unfold readTag at h
  split at h
  · split at h
    · split at h
      · cases h
      · cases h
        rfl
    · cases h
      rfl
  · split at h
    · cases h
    · cases h
      rfl

theorem isMisfit_of_maskOfTags {tags : List Setting} {e : PolicyError}
    (h : maskOfTags tags = .error e) : e.isMisfit = true := by
  induction tags with
  | nil => cases h
  | cons t ts ih =>
    unfold maskOfTags at h
    cases ht : readTag t with
    | error e' =>
      rw [ht] at h
      cases h
      exact isMisfit_of_readTag ht
    | ok b =>
      rw [ht] at h
      cases hts : maskOfTags ts with
      | error e' =>
        rw [hts] at h
        cases h
        exact ih hts
      | ok m =>
        rw [hts] at h
        cases h

theorem isMisfit_of_maskOfSequence {items : List Setting} {n : Int} {e : PolicyError}
    (h : maskOfSequence items n = .error e) : e.isMisfit = true := by
  unfold maskOfSequence at h
  split at h
  · exact isMisfit_of_maskOfTags h
  · cases h
    rfl

variable {machine : Machine}

/-- There are more components than can be counted, or more than the memory can hold. -/
def Machine.isExceeded (machine : Machine) (n : Int) : Prop :=
  fitsInt64 n = false ∨ (machine.mostItems : Int) < n

/-- A mask of one kind is refused only if its components are too many. -/
theorem isExceeded_of_uniformMask {marked : Bool} {n : Int} {e : PolicyError}
    (h : uniformMask machine marked n = .error e) : machine.isExceeded n := by
  unfold uniformMask at h
  split at h
  · rename_i hfit
    exact Or.inl (by simpa using hfit)
  · split at h
    · rename_i hlarge
      exact Or.inr hlarge
    · cases h

theorem isMisfit_or_isExceeded_of_maskOfText {s : String} {n : Int} {e : PolicyError}
    (h : maskOfText machine s n = .error e) : e.isMisfit = true ∨ machine.isExceeded n := by
  unfold maskOfText at h
  split at h
  · exact Or.inr (isExceeded_of_uniformMask h)
  · split at h
    · exact Or.inr (isExceeded_of_uniformMask h)
    · cases h
      exact Or.inl rfl

theorem Solver.storedElements_eq_ok {cause : SettingsError}
    {elements? : Setting → Option (List Setting)} {given policy : Setting}
    (h : Solver.storedElements machine cause elements? given = .ok policy) :
    ∃ items, policy = .tuple items := by
  unfold Solver.storedElements at h
  split at h
  · split at h
    · cases h
    · split at h
      · cases h
      · cases h
        exact ⟨_, rfl⟩
  · split at h
    · cases h
      exact ⟨_, rfl⟩
    · cases h

/-- A solver keeps its policy as a text or as a tuple. -/
theorem Solver.storedPolicy_eq_ok {given policy : Setting}
    (h : Solver.storedPolicy machine given = .ok policy) :
    (∃ s, policy = .text s) ∨ ∃ items, policy = .tuple items := by
  unfold Solver.storedPolicy at h
  split at h
  · cases h
    exact Or.inl ⟨_, rfl⟩
  · exact Or.inr (storedElements_eq_ok h)
  · exact Or.inr (storedElements_eq_ok h)

/-- Settings are accepted if every check accepts its field, and the solver keeps what the checks
return. -/
theorem Solver.ofSettings_eq_ok_iff {settings : Settings} {solver : Solver} :
    Solver.ofSettings settings = .ok solver ↔ settings.hasJacobian = true ∧
      Solver.checkBudget settings.maxSteps = .ok solver.maxSteps ∧
      Solver.checkTolerance "atol" settings.atol = .ok solver.atol ∧
      Solver.checkTolerance "rtol" settings.rtol = .ok solver.rtol ∧
      Solver.checkMethod settings.linearSolver = .ok solver.linearMethod ∧
      Solver.storedPolicy settings.machine settings.projection = .ok solver.projection ∧
      settings.pivotRtol = solver.pivotRtol ∧ settings.machine = solver.machine := by
  unfold Solver.ofSettings
  cases settings.hasJacobian with
  | false =>
    constructor
    · intro h
      cases h
    · rintro ⟨h, -⟩
      cases h
  | true =>
    constructor
    · intro h
      obtain ⟨budget, hbudget, h⟩ := bind_eq_ok_iff.1 h
      obtain ⟨atol, hatol, h⟩ := bind_eq_ok_iff.1 h
      obtain ⟨rtol, hrtol, h⟩ := bind_eq_ok_iff.1 h
      obtain ⟨method, hmethod, h⟩ := bind_eq_ok_iff.1 h
      obtain ⟨policy, hpolicy, h⟩ := bind_eq_ok_iff.1 h
      cases h
      exact ⟨rfl, hbudget, hatol, hrtol, hmethod, hpolicy, rfl, rfl⟩
    · rintro ⟨-, hbudget, hatol, hrtol, hmethod, hpolicy, hpivot, hmachine⟩
      rw [hbudget, hatol, hrtol, hmethod, hpolicy, hpivot, hmachine]
      rfl

theorem Solver.storedPolicy_of_ofSettings {settings : Settings} {solver : Solver}
    (h : Solver.ofSettings settings = .ok solver) :
    Solver.storedPolicy settings.machine settings.projection = .ok solver.projection := by
  obtain ⟨-, -, -, -, -, hpolicy, -⟩ := ofSettings_eq_ok_iff.1 h
  exact hpolicy

/-- A policy that a solver keeps names no mask, or it is a text and the components are too many
for one. -/
theorem isMisfit_or_isExceeded_of_maskFor {policy : Setting} {n : Nat} {e : PolicyError}
    (hpolicy : (∃ s, policy = .text s) ∨ ∃ items, policy = .tuple items)
    (h : maskFor machine policy n = .error e) :
    e.isMisfit = true ∨ machine.isExceeded n ∧ ∃ s, policy = .text s := by
  have hmask := maskFor_eq_error_iff.1 h
  rcases hpolicy with ⟨s, rfl⟩ | ⟨items, rfl⟩
  · rcases isMisfit_or_isExceeded_of_maskOfText hmask with h | h
    · exact Or.inl h
    · exact Or.inr ⟨h, s, rfl⟩
  · exact Or.inl (isMisfit_of_maskOfSequence hmask)

/-! ## Shapes -/

variable {α : Type} {n : Nat}

theorem Tensor.toVector?_eq_none_iff {t : Tensor α} : t.toVector? n = none ↔ t.shape ≠ [n] := by
  unfold Tensor.toVector?
  split <;> simp_all

theorem Tensor.toMatrix?_eq_none_iff {t : Tensor α} :
    t.toMatrix? n = none ↔ t.shape ≠ [n, n] := by
  unfold Tensor.toMatrix?
  split <;> simp_all

namespace System

/-- The values of a system are tensors everywhere, of whatever shapes. -/
structure NeverFaults (system : System α n) : Prop where
  residual : ∀ y, ∃ t, system.residual y = .ok t
  jacobian : ∀ y, ∃ t, system.jacobian y = .ok t

/-- If the shape of the Jacobian is not known in advance, it is only for want of numbers. -/
def NeedsOnlyValues (system : System α n) : Prop :=
  ∀ f, system.jacobianShape = .error f → f.needsValues = true

/-- The Jacobian has the shape that is known in advance everywhere, and the residual has one shape
everywhere. -/
structure FixedShapes (system : System α n) : Prop where
  jacobian : ∃ s, system.jacobianShape = .ok s ∧
    ∀ y t, system.jacobian y = .ok t → t.shape = s
  residual : ∃ s, ∀ y t, system.residual y = .ok t → t.shape = s

theorem neverFaults_ofMaps (F : Vector α n → Vector α n) (J : Vector α n → SquareMatrix α n) :
    (ofMaps F J).NeverFaults where
  residual _ := ⟨_, rfl⟩
  jacobian _ := ⟨_, rfl⟩

theorem needsOnlyValues_ofMaps (F : Vector α n → Vector α n)
    (J : Vector α n → SquareMatrix α n) : (ofMaps F J).NeedsOnlyValues := by
  intro f h
  cases h

theorem fixedShapes_ofMaps (F : Vector α n → Vector α n) (J : Vector α n → SquareMatrix α n) :
    (ofMaps F J).FixedShapes where
  jacobian := by
    refine ⟨[n, n], rfl, fun y t h => ?_⟩
    cases h
    rfl
  residual := by
    refine ⟨[n], fun y t h => ?_⟩
    cases h
    rfl

variable {system : System α n} {y : Vector α n} {e : Failure} {t : Tensor α}

theorem FixedShapes.needsOnlyValues (h : system.FixedShapes) : system.NeedsOnlyValues := by
  intro f hf
  obtain ⟨s, hs, -⟩ := h.jacobian
  rw [hs] at hf
  cases hf

theorem exists_residualVector_iff (ht : system.residual y = .ok t) :
    (∃ f, system.residualVector y = .ok f) ↔ t.shape = [n] := by
  rw [← not_iff_not, ← ne_eq t.shape, ← Tensor.toVector?_eq_none_iff]
  unfold residualVector
  simp only [ht]
  cases t.toVector? n <;> simp

theorem exists_jacobianMatrix_iff (ht : system.jacobian y = .ok t) :
    (∃ A, system.jacobianMatrix y = .ok A) ↔ t.shape = [n, n] := by
  rw [← not_iff_not, ← ne_eq t.shape, ← Tensor.toMatrix?_eq_none_iff]
  unfold jacobianMatrix
  simp only [ht]
  cases t.toMatrix? n <;> simp

theorem residualVector_eq_error_iff (ht : system.residual y = .ok t) :
    system.residualVector y = .error e ↔ t.shape ≠ [n] ∧ .residualShape t.shape n = e := by
  rw [← Tensor.toVector?_eq_none_iff]
  unfold residualVector
  simp only [ht]
  cases t.toVector? n <;> simp

theorem jacobianMatrix_eq_error_iff (ht : system.jacobian y = .ok t) :
    system.jacobianMatrix y = .error e ↔ t.shape ≠ [n, n] ∧ .jacobianShape t.shape n = e := by
  rw [← Tensor.toMatrix?_eq_none_iff]
  unfold jacobianMatrix
  simp only [ht]
  cases t.toMatrix? n <;> simp

theorem value_checkJacobianShape_eq_ok_iff (h : system.NeedsOnlyValues) :
    system.checkJacobianShape.value = .ok () ↔
      ∀ s, system.jacobianShape = .ok s → s = [n, n] := by
  unfold checkJacobianShape
  cases hs : system.jacobianShape with
  | ok s =>
    dsimp only
    split <;> simp_all
  | error f =>
    simp [h f hs]

theorem value_checkJacobianShape_eq_error_iff (h : system.NeedsOnlyValues) :
    system.checkJacobianShape.value = .error e ↔
      ∃ s, system.jacobianShape = .ok s ∧ s ≠ [n, n] ∧ .jacobianShape s n = e := by
  unfold checkJacobianShape
  cases hs : system.jacobianShape with
  | ok s =>
    dsimp only
    split <;> simp_all
  | error f =>
    simp [h f hs]

end System

namespace Newton

variable [Scalar α] {newton : Newton α}

/-- With fixed shapes, the values have the right ones everywhere if a start is admissible. -/
theorem isSquare_of_init {system : System α n} {y₀ : Vector α n} {s₀ : State α n}
    (hdef : system.NeverFaults) (hfixed : system.FixedShapes)
    (h₀ : (newton.init system y₀).value = .ok s₀) : system.IsSquare := by
  obtain ⟨-, f, hf, hknown, -, -⟩ := value_init_eq_ok_iff.1 h₀
  obtain ⟨s, hs, hjacobian⟩ := hfixed.jacobian
  obtain ⟨r, hresidual⟩ := hfixed.residual
  have hsquare : s = [n, n] := 
    (System.value_checkJacobianShape_eq_ok_iff hfixed.needsOnlyValues).1 hknown s hs
  have hvector : r = [n] := by
    obtain ⟨t, ht⟩ := hdef.residual y₀
    rw [← hresidual y₀ t ht]
    exact (System.exists_residualVector_iff ht).1 ⟨f, hf⟩
  constructor
  · intro y
    obtain ⟨t, ht⟩ := hdef.residual y
    exact (System.exists_residualVector_iff ht).2 ((hresidual y t ht).trans hvector)
  · intro y
    obtain ⟨t, ht⟩ := hdef.jacobian y
    exact (System.exists_jacobianMatrix_iff ht).2 ((hjacobian y t ht).trans hsquare)

end Newton

end Stationary
