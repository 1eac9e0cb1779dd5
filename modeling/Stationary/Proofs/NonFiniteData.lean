import Stationary.Operands
import Stationary.Proofs.Exact
import Stationary.Proofs.Exclusive
import Stationary.Proofs.RoundedFormats

/-!
# Data that are not finite

In a binary format a difference or a product is finite only if its first operand is
(`ReflectsFinite`). Elimination keeps what is not finite in sight. An exchange only moves an entry.
At the top it is the pivot or an upper entry. Below and in the first column, it has a multiplier
that is not finite. Everywhere else what is left of it is not finite, and the layers below have it.
So finite factors are those of a finite matrix (`factor_allFinite`), and a finite solution is that
of a finite right-hand side, whatever the factors are (`Factors.solve_allFinite`).

The flag of a step by elimination asks for both. So data that are not finite give no step, with
whatever pivot threshold and in whatever formats (`Operands.delta_lu_of_not_finite`), and a run that
has to leave an iterate where its Jacobian is not finite ends there
(`elimination_refuses_nonFinite`).
-/

set_option linter.unusedSectionVars false

namespace Stationary

open BinaryFormat
open Float.Model (Format UnpackedFloat)

/-- Finite differences and products have first operands that are finite. -/
class ReflectsFinite (α : Type) [Scalar α] : Prop where
  of_sub {x y : α} : Scalar.isFinite (x - y) = true → Scalar.isFinite x = true
  of_mul {x y : α} : Scalar.isFinite (x * y) = true → Scalar.isFinite x = true

/-! ## Binary formats -/

section Unpacked

variable {u : UnpackedFloat}

theorem eq_of_not_finite (h : u.isFinite = false) :
    u = .notANumber ∨ ∃ sign, u = .infinity sign := by
  cases u with
  | notANumber => exact Or.inl rfl
  | infinity sign => exact Or.inr ⟨sign, rfl⟩
  | zero sign => cases h
  | finite sign mantissa exponent hpos => cases h

theorem isFinite_unpacked_add (format : Format) (h : u.isFinite = false) (v : UnpackedFloat) :
    (UnpackedFloat.add format u v).isFinite = false := by
  rcases eq_of_not_finite h with rfl | ⟨sign, rfl⟩
  · cases v <;> rfl
  · cases v with
    | infinity sign' => cases sign <;> cases sign' <;> rfl
    | _ => rfl

theorem isFinite_unpacked_mul (format : Format) (h : u.isFinite = false) (v : UnpackedFloat) :
    (UnpackedFloat.mul format u v).isFinite = false := by
  rcases eq_of_not_finite h with rfl | ⟨sign, rfl⟩
  · cases v <;> rfl
  · cases v <;> rfl

theorem isFinite_roundedTo (format : Format) (h : u.isFinite = false) :
    (roundedTo format u).isFinite = false := by
  rcases eq_of_not_finite h with rfl | ⟨sign, rfl⟩
  · rfl
  · rfl

end Unpacked

section Formats

variable {α : Type} [Scalar α] [BinaryFormat α]

theorem isFinite_pack {u : UnpackedFloat} (h : u.isFinite = false) :
    Scalar.isFinite (pack u : α) = false := by
  rw [isFinite_eq_unpack]
  rcases eq_of_not_finite h with rfl | ⟨sign, rfl⟩
  · rw [unpack_pack_notANumber]
    rfl
  · rw [unpack_pack_infinity]
    rfl

theorem isFinite_toBinary32 {x : Float} (h : Scalar.isFinite x = false) :
    Scalar.isFinite (toBinary32 x) = false := by
  rw [isFinite_eq_unpack] at h
  exact isFinite_pack (α := Float32) (isFinite_roundedTo .binary32 h)

variable [RoundedFormat α]

instance : ReflectsFinite α where
  of_sub {x y} h := by
    refine Bool.of_not_eq_false fun hx => ?_
    rw [isFinite_eq_unpack] at hx
    rw [RoundedFormat.sub_eq_pack, unpacked_sub_eq,
      isFinite_pack (isFinite_unpacked_add _ hx _)] at h
    cases h
  of_mul {x y} h := by
    refine Bool.of_not_eq_false fun hx => ?_
    rw [isFinite_eq_unpack] at hx
    rw [mul_eq_pack, isFinite_pack (isFinite_unpacked_mul _ hx _)] at h
    cases h

/-- Flushing changes finite numbers only. -/
instance [Subnormal α] : ReflectsFinite (Flushed α) where
  of_sub {x y} h := by
    have hsub : Scalar.isFinite (flush x.value - flush y.value) = true :=
      (isFinite_flush _).symm.trans h
    exact (isFinite_flush x.value).symm.trans (ReflectsFinite.of_sub hsub)
  of_mul {x y} h := by
    have hmul : Scalar.isFinite (flush x.value * flush y.value) = true :=
      (isFinite_flush _).symm.trans h
    exact (isFinite_flush x.value).symm.trans (ReflectsFinite.of_mul hmul)

end Formats

/-! ## Elimination -/

section Elimination

variable {α : Type} {n : Nat} [Scalar α] [ReflectsFinite α]

/-- Finite factors are those of a finite matrix. -/
theorem factor_allFinite {A : SquareMatrix α n} (h : (factor A).allFinite = true) (i : Fin n) :
    Vec.allFinite (A.get i) = true := by
  induction n with
  | zero => exact i.elim0
  | succ n ih =>
    let row := pivotIndex (A.map Vec.head)
    let top := Vec.head (bringToTop row A)
    let rows := Vec.rest (bringToTop row A)
    let lower := multipliers (Vec.head top) rows
    obtain ⟨⟨⟨hpivot, hupper⟩, hlower⟩, hbelow⟩ : ((Scalar.isFinite (Vec.head top) = true ∧
        Vec.allFinite (Vec.rest top) = true) ∧ Vec.allFinite lower = true) ∧
          (factor (eliminate (Vec.rest top) lower rows)).allFinite = true := by
      simpa only [factor, Factors.allFinite, Bool.and_eq_true] using h
    have htop : Vec.allFinite top = true := by
      rw [← Vec.cons_head_rest top]
      exact Vec.allFinite_cons_iff.2 ⟨hpivot, hupper⟩
    have hrow : ∀ k, Vec.allFinite (rows.get k) = true := fun k => by
      rw [← Vec.cons_head_rest (rows.get k)]
      refine Vec.allFinite_cons_iff.2 ⟨?_, Vec.allFinite_eq_true_iff.2 fun j => ?_⟩
      · -- the first entry has gone into a multiplier
        have hmultiplier := Vec.allFinite_eq_true_iff.1 hlower k
        rw [get_multipliers] at hmultiplier
        exact ReflectsFinite.of_mul hmultiplier
      · -- from the others a multiple has been subtracted
        have hentry := Vec.allFinite_eq_true_iff.1 (ih hbelow k) j
        rw [get_get_eliminate, ← Vec.get_rest] at hentry
        exact ReflectsFinite.of_sub hentry
    refine (forall_get_bringToTop_iff (p := (Vec.allFinite · = true)) row A).1 ?_ i
    exact Fin.forall_fin_succ.2 ⟨htop, fun k => Vec.get_rest (bringToTop row A) k ▸ hrow k⟩

/-- A finite solution is that of a finite right-hand side. -/
theorem Factors.solve_allFinite {f : Factors α n} {b : Vector α n}
    (h : Vec.allFinite (f.solve b) = true) (i : Fin n) : Scalar.isFinite (b.get i) = true := by
  induction f with
  | empty => exact i.elim0
  | @layer n row pivot upper lower below ih =>
    let r := bringToTop row b
    obtain ⟨hfirst, hrest⟩ := Vec.allFinite_cons_iff.1 h
    have hhead : Scalar.isFinite (Vec.head r) = true :=
      ReflectsFinite.of_sub (ReflectsFinite.of_mul hfirst)
    refine (forall_get_bringToTop_iff (p := (Scalar.isFinite · = true)) row b).1 ?_ i
    refine Fin.forall_fin_succ.2 ⟨hhead, fun k => ?_⟩
    have hentry := ih hrest k
    rw [Vec.get_zipWith, Vec.get_rest] at hentry
    exact ReflectsFinite.of_sub hentry

/-- No flag of a step by elimination is up for data that are not finite, in whatever format the
factors are solved with. -/
theorem flag_of_not_finite {β : Type} [Scalar β] [ReflectsFinite β] {A : SquareMatrix α n}
    {b : Vector β n} {g : Factors β n} (r : α)
    (h : (∃ i j, Scalar.isFinite ((A.get i).get j) = false) ∨
      ∃ i, Scalar.isFinite (b.get i) = false) :
    (!(factor A).isSingular r && (factor A).allFinite && Vec.allFinite (g.solve b)) = false := by
  refine Bool.eq_false_iff.2 fun hflag => ?_
  simp only [Bool.and_eq_true] at hflag
  obtain ⟨⟨-, hfactors⟩, hsolution⟩ := hflag
  rcases h with ⟨i, j, hentry⟩ | ⟨i, hentry⟩
  · rw [Vec.allFinite_eq_true_iff.1 (factor_allFinite hfactors i) j] at hentry
    cases hentry
  · rw [Factors.solve_allFinite hsolution i] at hentry
    cases hentry

end Elimination

/-! ## Operands -/

namespace Operands

variable {s : Operands}

/-- Formats that keep what is not finite. -/
theorem not_finite_in {α : Type} [Scalar α] [FloatFormat α]
    (hformat : ∀ x : Float, Scalar.isFinite x = false →
      Scalar.isFinite (FloatFormat.ofFloat x : α) = false) :
    ((∃ i j, Scalar.isFinite ((s.matrix.get i).get j) = false) →
      ∃ i j, Scalar.isFinite (((s.matrixIn α).get i).get j) = false) ∧
    ((∃ i, Scalar.isFinite (s.rhs.get i) = false) →
      ∃ i, Scalar.isFinite ((s.rhsIn α).get i) = false) := by
  constructor
  · rintro ⟨i, j, h⟩
    refine ⟨i, j, ?_⟩
    rw [matrixIn, Vec.get_map, Vec.get_map]
    exact hformat _ h
  · rintro ⟨i, h⟩
    refine ⟨i, ?_⟩
    rw [rhsIn, Vec.get_map]
    exact hformat _ h

/-- Operands with an entry that is not finite have no step by elimination, in whatever formats they
are and with every threshold that is a float or left out. -/
theorem delta_lu_of_not_finite {pivotRtol : Setting}
    (hr : pivotRtol = .nothing ∨ ∃ r, pivotRtol = .float r)
    (h : (∃ i j, Scalar.isFinite ((s.matrix.get i).get j) = false) ∨
      ∃ i, Scalar.isFinite (s.rhs.get i) = false) :
    ∃ step, s.lu pivotRtol = .ok step ∧ step.delta = none := by
  have hsize : s.size ≠ 0 := by
    rcases h with ⟨i, -⟩ | ⟨i, -⟩
    · exact (Nat.zero_lt_of_lt i.isLt).ne'
    · exact (Nat.zero_lt_of_lt i.isLt).ne'
  obtain ⟨r, hr₆₄⟩ : ∃ r, threshold Binary64 s.size pivotRtol = some r := by
    rcases hr with rfl | ⟨r, rfl⟩
    · exact ⟨_, rfl⟩
    · exact ⟨_, rfl⟩
  obtain ⟨r₃₂, hr₃₂⟩ : ∃ r, threshold Binary32 s.size pivotRtol = some r := by
    rcases hr with rfl | ⟨r, rfl⟩
    · exact ⟨_, rfl⟩
    · exact ⟨_, rfl⟩
  have hwide := not_finite_in (s := s) (α := Binary64) fun x hx => hx
  have hnarrow := not_finite_in (s := s) (α := Binary32) fun x hx => isFinite_toBinary32 hx
  unfold lu
  rw [hr₆₄, hr₃₂]
  simp only [if_neg hsize]
  split
  · refine ⟨_, rfl, if_neg ?_⟩
    rw [LinearStep.lu, flag_of_not_finite r₃₂ (h.imp hnarrow.1 hnarrow.2)]
    exact Bool.false_ne_true
  · split
    · refine ⟨_, rfl, if_neg ?_⟩
      rw [LinearStep.luWidened, flag_of_not_finite r₃₂ (h.imp hnarrow.1 hwide.2)]
      exact Bool.false_ne_true
    · refine ⟨_, rfl, if_neg ?_⟩
      rw [LinearStep.lu, flag_of_not_finite r (h.imp hwide.1 hwide.2)]
      exact Bool.false_ne_true

end Operands

/-! ## Runs -/

/-- In an arithmetic that keeps what is not finite, a step by elimination for a matrix or a
right-hand side with an entry that is not finite cannot be used, whatever the threshold. So a run
by elimination, with a pivot threshold that is left out or a float, that has budget left at an
iterate with a finite residual, has not converged there and meets a Jacobian with an entry that
is not finite, ends at this iterate for a singular Jacobian. That the run looks at the flags of
this iterate says that its tolerances fit. -/
theorem elimination_refuses_nonFinite {α : Type} [Scalar α] [ReflectsFinite α] [Decomposes α] :
    (∀ {n : Nat} (A : SquareMatrix α n) (b : Vector α n) (r : α),
      ((∃ i j, Scalar.isFinite ((A.get i).get j) = false) ∨
        ∃ i, Scalar.isFinite (b.get i) = false) → (LinearStep.lu A b r).usable = false) ∧
    ∀ {n k : Nat} (newton : Newton α) (system : System α n) (y₀ y : Vector α n) (s : State α n)
        (A : SquareMatrix α n),
      newton.linearMethod = .lu → newton.checkPivots = .ok () →
      Newton.Visits newton system y₀ k y s → newton.machine.counted k < newton.maxSteps →
      Vec.allFinite s.residual = true → (newton.status s).converged = false →
      system.jacobianMatrix y = .ok A → (∃ i j, Scalar.isFinite ((A.get i).get j) = false) →
      (newton.run system y₀).value = .ok
        { value := y, outcome := .singularJacobian,
          steps := newton.machine.counted (if s.stepFailed then k else k + 1),
          residualNorm := s.norm } := by
  refine ⟨fun A b r h => flag_of_not_finite r h, fun newton system y₀ y s A hmethod hp hvisit hk
    hfinite hconverged hA hentry => ?_⟩
  obtain ⟨d, hd⟩ := newton.linearStep_eq A (Vec.neg s.residual)
  rw [hp] at hd
  have hsolves : newton.Solves system y s d := ⟨A, hA, hd⟩
  refine hvisit.value_run_of_stuck hk hfinite hconverged hsolves ?_
  obtain ⟨A', r, hA', -, rfl⟩ := hsolves.eq_lu hmethod
  obtain rfl : A = A' := Except.ok.inj (hA.symm.trans hA')
  exact flag_of_not_finite r (Or.inl hentry)

/-- Two equations whose Jacobian has an infinite entry where the first unknown is zero. -/
def poleEquations : System Binary64 2 :=
  .ofMaps (fun y => #v[y.get 0 - 1, y.get 1 - ⟨2⟩]) fun y => #v[#v[0, 1 / y.get 0], #v[⟨2⟩, 0]]

/-- A run that starts there ends at its start. -/
theorem elimination_refuses_nonFinite_pole :
    (LinearStep.lu #v[#v[0, 1 / 0], #v[⟨2⟩, 0]] #v[1, 1] (0 : Binary64)).usable = false ∧
    ((Solver.standard.newton Binary64).run poleEquations #v[0, ⟨5⟩]).value = .ok
      { value := #v[0, ⟨5⟩], outcome := .singularJacobian, steps := 1,
        residualNorm := Vec.norm #v[⟨-1⟩, ⟨3⟩] } := by
  have hinfinite : ∃ i j, Scalar.isFinite
      (((#v[#v[0, 1 / 0], #v[⟨2⟩, 0]] : SquareMatrix Binary64 2).get i).get j) = false :=
    ⟨0, 1, by decide +kernel⟩
  have hstart : ((Solver.standard.newton Binary64).init poleEquations #v[0, ⟨5⟩]).value =
      .ok (.initial #v[⟨-1⟩, ⟨3⟩]) := by
    refine Newton.value_init_eq_ok_iff.2
      ⟨by decide, #v[⟨-1⟩, ⟨3⟩], ?_, rfl, ⟨#v[true, true], rfl⟩, rfl⟩
    rw [poleEquations, System.residualVector_ofMaps]
    exact congrArg Except.ok (by decide +kernel)
  refine ⟨elimination_refuses_nonFinite.1 _ _ _ (Or.inl hinfinite), ?_⟩
  exact elimination_refuses_nonFinite.2 _ _ _ _ _ _ rfl rfl
    (.start hstart (Solver.checkTolerances_newton Solver.tolerancesFit_standard)) (by decide)
    (by decide +kernel) (by decide +kernel) (System.jacobianMatrix_ofMaps ..) hinfinite

end Stationary
