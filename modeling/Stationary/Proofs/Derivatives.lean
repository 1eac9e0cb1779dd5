import Stationary.Proofs.AlikeTensors
import Stationary.Proofs.BinaryFormat
import Stationary.Proofs.Rounding
import Stationary.Proofs.Undefined
import Stationary.Problem

/-!
# Derivatives

Jets over a field are differentiated exactly. A jet holds a value and a gradient (`Jet.Has`), where
a constant holds the gradient zero; the arithmetic of jets follows the rules for sums, differences,
products and negatives. The unknowns are jets with unit vectors as gradients (`Jet.unknowns`). So
the derivative of a function is the matrix of the gradients of its components
(`derivative_ofVector`), whichever way they are computed, and a Jacobian with these rows has the
error zero (`jacobianErrorOf_eq_zero`).
-/

set_option linter.unusedSectionVars false

namespace Stationary

/-- An ordered field with elementary functions, of which nothing is promised. -/
class ExactElementary (𝕜 : Type) extends ExactArithmetic 𝕜 where
  /-- What stands for a number of binary64. -/
  ofFloat : Float → 𝕜
  exp : 𝕜 → 𝕜
  log : 𝕜 → 𝕜
  sin : 𝕜 → 𝕜
  cos : 𝕜 → 𝕜
  tanh : 𝕜 → 𝕜

/-- The operations of the field, with its powers. -/
instance ExactElementary.elementary {𝕜 : Type} [ExactElementary 𝕜] : Elementary 𝕜 where
  toScalar := ExactArithmetic.scalar
  ofFloat := ofFloat
  exp := exp
  log := log
  sin := sin
  cos := cos
  tanh := tanh
  power x k := x ^ k

theorem ExactElementary.uniformKind {𝕜 : Type} [ExactElementary 𝕜] : UniformKind 𝕜 :=
  ⟨fun _ => rfl, fun _ _ => rfl, fun _ => rfl⟩

namespace Jet

section Kinds

variable {α : Type} [Elementary α]

theorem settled_eq (h : UniformKind α) (x : Jet α) : settled x.value x = x := by
  have hrule : (fun g => (Elementary.matched x.value g).2) = id := by
    funext g
    rw [h.matched_eq]
    rfl
  unfold settled chain
  rw [hrule]
  cases x with
  | mk value slopes => cases slopes <;> simp

theorem matched_eq (h : UniformKind α) (x y : Jet α) : matched x y = (x, y) := by
  unfold matched
  rw [h.matched_eq]
  simp only [settled_eq h]

theorem uniformKind (h : UniformKind α) : UniformKind (Jet α) where
  refusal?_eq_none x := by
    show refusal? x = none
    unfold refusal?
    rw [h.refusal?_eq_none]
    cases x.slopes <;> simp [h.refusal?_eq_none]
  matched_eq := matched_eq h
  alike_eq xs := by
    show alike xs = xs
    unfold alike
    rw [h.alike_eq]
    refine Array.ext (by simp) fun i hi hi' => ?_
    simp [settled_eq h]

end Kinds

variable {𝕜 : Type} [ExactElementary 𝕜] {n : Nat} {x y : Jet 𝕜} {v w : 𝕜} {g h : Fin n → 𝕜}

/-! ## Gradients -/

/-- The derivatives are those of `g`, where no derivatives are zeros. -/
def HoldsGradient (slopes : Option (Array 𝕜)) (g : Fin n → 𝕜) : Prop :=
  slopes = some (Array.ofFn g) ∨ slopes = none ∧ g = 0

theorem HoldsGradient.map {s : Option (Array 𝕜)} (hs : HoldsGradient s g) {rule : 𝕜 → 𝕜}
    (hzero : rule 0 = 0) : HoldsGradient (s.map (·.map rule)) fun i => rule (g i) := by
  rcases hs with rfl | ⟨rfl, rfl⟩
  · left
    rw [Option.map_some, Array.map_ofFn]
    rfl
  · exact Or.inr ⟨rfl, funext fun _ => hzero⟩

theorem HoldsGradient.add {s t : Option (Array 𝕜)} (hs : HoldsGradient s g)
    (ht : HoldsGradient t h) : HoldsGradient (addSlopes s t) (g + h) := by
  rcases hs with rfl | ⟨rfl, rfl⟩ <;> rcases ht with rfl | ⟨rfl, rfl⟩
  · refine Or.inl (congrArg some (Array.ext (by simp) fun i hi hi' => ?_))
    simp
  · rw [add_zero]
    exact Or.inl rfl
  · rw [zero_add]
    exact Or.inl rfl
  · exact Or.inr ⟨rfl, add_zero 0⟩

/-- The jet has the value `v` and the gradient `g`. -/
structure Has (x : Jet 𝕜) (v : 𝕜) (g : Fin n → 𝕜) : Prop where
  value_eq : x.value = v
  gradient : HoldsGradient x.slopes g

theorem Has.of_gradient (hx : x.Has v g) (hg : ∀ i, g i = h i) : x.Has v h :=
  funext hg ▸ hx

theorem Has.slopesOf_eq (hx : x.Has v g) : x.slopesOf n = Array.ofFn g := by
  unfold slopesOf
  rcases hx.gradient with hs | ⟨hs, rfl⟩
  · rw [hs, Option.getD_some]
  · rw [hs, Option.getD_none]
    exact Array.ext (by simp) fun i hi hi' => by simp

theorem has_constant (c : 𝕜) : (constant c).Has c (0 : Fin n → 𝕜) :=
  ⟨rfl, Or.inr ⟨rfl, rfl⟩⟩

theorem Has.neg (hx : x.Has v g) : (-x).Has (-v) (-g) :=
  ⟨congrArg (-·) hx.value_eq, hx.gradient.map neg_zero⟩

theorem Has.add (hx : x.Has v g) (hy : y.Has w h) : (x + y).Has (v + w) (g + h) := by
  have hsum : x + y = chain₂ (x.value + y.value) id id x y := by
    show onMatched _ x y = _
    unfold onMatched
    rw [matched_eq ExactElementary.uniformKind]
  rw [hsum]
  exact ⟨congrArg₂ (· + ·) hx.value_eq hy.value_eq, (hx.gradient.map rfl).add (hy.gradient.map rfl)⟩

theorem Has.sub (hx : x.Has v g) (hy : y.Has w h) : (x - y).Has (v - w) (g - h) := by
  have hdifference : x - y = chain₂ (x.value - y.value) id (- ·) x y := by
    show onMatched _ x y = _
    unfold onMatched
    rw [matched_eq ExactElementary.uniformKind]
  rw [hdifference, sub_eq_add_neg g]
  exact ⟨congrArg₂ (· - ·) hx.value_eq hy.value_eq,
    (hx.gradient.map rfl).add (hy.gradient.map neg_zero)⟩

theorem Has.mul (hx : x.Has v g) (hy : y.Has w h) :
    (x * y).Has (v * w) fun i => g i * w + v * h i := by
  have hproduct : x * y = chain₂ (x.value * y.value) (· * y.value) (x.value * ·) x y := by
    show onMatched _ x y = _
    unfold onMatched
    rw [matched_eq ExactElementary.uniformKind]
  rw [hproduct, hx.value_eq, hy.value_eq]
  exact ⟨rfl, (hx.gradient.map (zero_mul w)).add (hy.gradient.map (mul_zero v))⟩

/-- The unknowns as jets, with unit vectors as gradients. -/
def unknowns (y : Vector 𝕜 n) : Vector (Jet 𝕜) n :=
  Vector.ofFn fun i => ⟨y.get i, some (Array.ofFn (Pi.single i (1 : 𝕜) : Fin n → 𝕜))⟩

theorem has_unknowns (y : Vector 𝕜 n) (i : Fin n) :
    ((unknowns y).get i).Has (y.get i) (Pi.single i 1) := by
  rw [unknowns, Vector.get_ofFn]
  exact ⟨rfl, Or.inl rfl⟩

end Jet

/-! ## Functions of the unknowns -/

variable {𝕜 : Type} [ExactElementary 𝕜] {n : Nat}

theorem directions_ofVector (y : Vector 𝕜 n) :
    directions (.ofVector y) = .ofVector (Jet.unknowns y) := by
  refine Tensor.ext_entries rfl
    (Array.ext (by simp [directions, Tensor.ofVector]) fun i hi hi' => ?_)
  have hn : i < n := by simpa [Tensor.ofVector] using hi'
  have hslopes : (Array.ofFn fun j : Fin y.toArray.size => if j.val = i then (1 : 𝕜) else 0) =
      Array.ofFn (Pi.single (⟨i, hn⟩ : Fin n) (1 : 𝕜) : Fin n → 𝕜) := by
    refine Array.ext (by simp) fun j hj hj' => ?_
    simp [Pi.single_apply, Fin.ext_iff]
  simpa [directions, Tensor.ofVector, Jet.unknowns, Vector.get,
    ExactElementary.uniformKind.matched_eq] using hslopes

/-- Gradients one after the other are the entries of the matrix with these rows. -/
theorem slopesAlong_ofVector {jets : Vector (Jet 𝕜) n} {f : Fin n → 𝕜} {A : SquareMatrix 𝕜 n}
    (h : ∀ i, (jets.get i).Has (f i) (A.get i).get) :
    slopesAlong [n] (.ofVector jets) = some (.ofMatrix A) := by
  have hsize : Shape.size [n] = n := Nat.mul_one n
  have hrows : jets.toArray.map (fun d => d.slopesOf n) = A.toArray.map Vector.toArray := by
    refine Array.ext (by simp) fun i hi hi' => ?_
    have hn : i < n := by simpa using hi
    have hrow := (h ⟨i, hn⟩).slopesOf_eq
    have hentries : Array.ofFn (A.get ⟨i, hn⟩).get = (A.get ⟨i, hn⟩).toArray := by
      refine Array.ext (by simp) fun j hj hj' => ?_
      simp [Vector.get]
    rw [Array.getElem_map, Array.getElem_map]
    exact hrow.trans hentries
  have hentries : (Tensor.ofVector jets).entries.flatMap (fun d => d.slopesOf (Shape.size [n])) =
      (Tensor.ofMatrix A).entries := by
    rw [hsize, Array.flatMap_def]
    exact congrArg Array.flatten hrows
  unfold slopesAlong
  rw [hentries]
  exact dif_pos (Tensor.ofMatrix A).size_eq

/-- The derivative of a function is the matrix of the gradients of its components. -/
theorem derivative_ofVector {F : Tensor (Jet 𝕜) → Except Fault (Tensor (Jet 𝕜))}
    {y : Vector 𝕜 n} {jets : Vector (Jet 𝕜) n} {f : Fin n → 𝕜} {A : SquareMatrix 𝕜 n}
    (hF : F (.ofVector (Jet.unknowns y)) = .ok (.ofVector jets))
    (h : ∀ i, (jets.get i).Has (f i) (A.get i).get) :
    derivative F (.ofVector y) = .ok (.ofMatrix A) := by
  have hslopes : slopesAlong (Tensor.ofVector y).shape (.ofVector jets) = some (.ofMatrix A) :=
    slopesAlong_ofVector h
  unfold derivative
  rw [directions_ofVector, hF]
  show orFault _ (slopesAlong (Tensor.ofVector y).shape (.ofVector jets)) = _
  rw [hslopes]
  rfl

/-! ## Errors of Jacobians -/

/-- The largest difference between a Jacobian and the derivative of a residual at a tensor. -/
def jacobianErrorOf {α : Type} [Elementary α] [Inhabited α]
    (residual : Tensor (Jet α) → Except Fault (Tensor (Jet α)))
    (jacobian : Tensor α → Except Fault (Tensor α)) (y : Tensor α) : Except Fault α := do
  let analytic ← jacobian y
  let automatic ← derivative residual y
  jacobianError analytic automatic

/-- Where no unknown is an integer, the error of a problem is that of its residual and its
Jacobian, unless it is no number. -/
theorem Problem.jacobianError_eq (p : Problem) {y : Tensor Mixed}
    (hy : (y.entries.any fun x => x.kind.isWhole) = false) :
    p.jacobianError y =
      (jacobianErrorOf (fun z => (p.residualJet z).bind differentiable) p.jacobian y).bind
        fun largest => match largest.refusal? with
          | some r => .error (.refused r)
          | none => .ok largest := by
  simp only [Problem.jacobianError, jacobianErrorOf, hy, Bool.false_eq_true, if_false]
  cases p.jacobian y with
  | error e => rfl
  | ok analytic =>
    cases derivative (fun z => (p.residualJet z).bind Problem.differentiable) y with
    | error e => rfl
    | ok automatic =>
      refine congrArg (Except.bind (Stationary.jacobianError analytic automatic)) ?_
      funext largest
      cases largest.refusal? <;> rfl

variable [Inhabited 𝕜]

/-- The largest of zeros is zero. -/
theorem largestOf_of_zeros {t : Tensor 𝕜} {k : Nat} (h : t.entries = Array.replicate (k + 1) 0) :
    largestOf t = .ok 0 := by
  have hmax : ∀ k : Nat, (List.replicate k (0 : 𝕜)).foldl Scalar.max 0 = 0 := by
    intro k
    induction k with
    | zero => rfl
    | succ k ih =>
      have hzero : Scalar.max (0 : 𝕜) 0 = 0 := max_self 0
      rw [List.replicate_succ, List.foldl_cons, hzero, ih]
  unfold largestOf
  simp only [h, Array.toList_replicate, List.replicate_succ, hmax]

/-- A matrix with unknowns differs from itself by nothing. -/
theorem jacobianError_self (hn : n ≠ 0) (A : SquareMatrix 𝕜 n) :
    jacobianError (.ofMatrix A) (.ofMatrix A) = .ok 0 := by
  obtain ⟨k, hk⟩ := Nat.exists_eq_succ_of_ne_zero (Nat.mul_ne_zero hn hn)
  unfold jacobianError
  rw [combined_of_shape_eq _ rfl]
  refine largestOf_of_zeros (k := k) (Array.ext (by simp [Tensor.ofMatrix, hk]) fun i hi hi' => ?_)
  have habs : ∀ a : 𝕜, Scalar.abs (a - a) = 0 := fun a => by
    rw [sub_self]
    exact abs_zero
  rw [Array.getElem_zipWith, Array.getElem_replicate, habs]

/-- A Jacobian whose rows are the gradients of the residual has the error zero. -/
theorem jacobianErrorOf_eq_zero (hn : n ≠ 0)
    {F : Tensor (Jet 𝕜) → Except Fault (Tensor (Jet 𝕜))} {J : Tensor 𝕜 → Except Fault (Tensor 𝕜)}
    {y : Vector 𝕜 n} {jets : Vector (Jet 𝕜) n} {f : Fin n → 𝕜} {A : SquareMatrix 𝕜 n}
    (hF : F (.ofVector (Jet.unknowns y)) = .ok (.ofVector jets))
    (h : ∀ i, (jets.get i).Has (f i) (A.get i).get)
    (hJ : J (.ofVector y) = .ok (.ofMatrix A)) : jacobianErrorOf F J (.ofVector y) = .ok 0 := by
  unfold jacobianErrorOf
  rw [hJ, derivative_ofVector hF h]
  exact jacobianError_self hn A

/-- The real numbers, with the numbers of binary64 as they are and zero for those that are none. -/
noncomputable instance : ExactElementary ℝ where
  toExactArithmetic := inferInstance
  ofFloat x := ((valueOf (BinaryFormat.unpack x)).getD 0).toReal
  exp := Real.exp
  log := Real.log
  sin := Real.sin
  cos := Real.cos
  tanh := Real.tanh

end Stationary
