import Stationary.Formula
import Stationary.Kkt

/-!
# The reference system at any tensor

The reference problem as a caller states it has any number of costs, and it may be
evaluated at a tensor of any shape, whose first axis holds the unknowns; further axes are
columns, each of which is a point of its own. `KktData` is such a problem : its residual
and its Jacobian ask for exactly six unknowns and two costs, in this order, and the other
functions read components one by one, where one beyond the end is the last one. At six
unknowns, with two costs and data that fit into the arithmetic, the residual and the
Jacobian are those of the problem itself (`KktData.residual_ofVector`,
`KktData.jacobian_ofVector`).

The unknowns may be integers. Then the arithmetic is that of the integers as far as the
data are integers too.
-/

namespace Stationary

/-- The data of the reference problem as given : the costs may be any number of numbers. -/
structure KktData where
  cost : List Literal := [.float 3.0, .float 4.0]
  capacity : Literal := .float 4.0
  radiusSq : Literal := .float 4.0

/-- Fails unless there are exactly `expected` values. -/
def expectValues (expected got : Nat) : Except Fault Unit :=
  if got < expected then .error (.tooFewValues expected got)
  else if expected < got then .error (.tooManyValues expected)
  else .ok ()

namespace KktData

/-- Fails unless the first axis of a shape has six parts. -/
def expectUnknowns : Shape → Except Fault Unit
  | [] => .error .incompatibleShapes
  | d :: _ => expectValues 6 d

section Values

variable {α : Type} [Elementary α]

/-- A number of the data. -/
def datum (c : Literal) : Except Fault α :=
  if c.fits .int64 then .ok c.embed else .error (.refused .tooLarge)

/-- The problem of two costs alone, with zeros for the other data. -/
def withCosts (d : KktData) : Except Fault (Kkt α) :=
  match d.cost with
  | [c₁, c₂] => do
    let c₁ ← datum c₁
    let c₂ ← datum c₂
    .ok ⟨c₁, c₂, 0, 0⟩
  | cs => (expectValues 2 cs.length).map fun _ => ⟨0, 0, 0, 0⟩

/-- The problem without its costs. -/
def withCapacity (d : KktData) : Except Fault (Kkt α) := do
  let capacity ← datum d.capacity
  .ok ⟨0, 0, capacity, 0⟩

/-- The problem, if there are two costs. -/
def problem (d : KktData) : Except Fault (Kkt α) := do
  let p ← d.withCosts
  let capacity ← datum d.capacity
  let radiusSq ← datum d.radiusSq
  .ok ⟨p.cost₁, p.cost₂, capacity, radiusSq⟩

variable [Inhabited α]

/-- The values of a function of the six unknowns, for each column of a tensor. -/
def columnwise {m : Nat} (f : Vector α 6 → Vector α m) (y : Tensor α) :
    Except Fault (Tensor α) :=
  match y.toVector? 6 with
  | some v => .ok (.ofVector (f v))
  | none => orFault .incompatibleShapes (y.mapColumns? f)

/-- The residual at a tensor. -/
def residual (d : KktData) (y : Tensor α) : Except Fault (Tensor α) := do
  expectUnknowns y.shape
  let p ← d.problem
  let t ← columnwise p.residual y
  Formula.likened t

/-- The objective at a tensor. -/
def objective (d : KktData) (y : Tensor α) : Except Fault (Tensor α) := do
  let p ← d.withCosts
  let x₁ ← component y 0
  let x₂ ← component y 1
  combined p.cost x₁ x₂

/-- The inequalities at a tensor. -/
def constraints (d : KktData) (y : Tensor α) : Except Fault (Tensor α) := do
  let x₁ ← component y 0
  let x₂ ← component y 1
  let p ← d.withCapacity
  let values (i : Fin 3) : Except Fault (Tensor α) :=
    combined (fun a b => (p.inequalities a b).get i) x₁ x₂
  let g₁ ← values 0
  let g₂ ← values 1
  let g₃ ← values 2
  Formula.stackAlike [g₁, g₂, g₃]

/-- The products of multipliers and inequalities at a tensor; the multipliers are what
the tensor has at places two to four. -/
def complementarity (d : KktData) (y : Tensor α) : Except Fault (Tensor α) := do
  let l ← orFault .outOfBounds (y.slice? 2 5)
  let g ← d.constraints y
  combined (· * ·) l g

/-- A number in the kind of the numbers of a tensor. -/
def likeEntries (y : Tensor α) (x : α) : α :=
  match y.entries[0]? with
  | some u => (Elementary.matched u x).2
  | none => x

/-- The Jacobian at a tensor, whose numbers are all of the tensor's kind; this kind must
have negative numbers. -/
def jacobian (y : Tensor α) : Except Fault (Tensor α) := do
  expectUnknowns y.shape
  let _ ← accepted (y.map (- ·))
  match y.toVector? 6 with
  | some v => .ok ((Tensor.ofMatrix (Kkt.jacobian v)).map (likeEntries y))
  | none =>
    let t ← columnwise (fun v => (Kkt.jacobian v).flatten) y
    orFault .incompatibleShapes
      (Tensor.ofArray? (6 :: 6 :: t.shape.tail) (t.entries.map (likeEntries y)))

end Values

@[simp] theorem expectUnknowns_six (inner : Shape) : expectUnknowns (6 :: inner) = .ok () :=
  rfl

section Laws

variable {α : Type} [Elementary α]

/-- With two costs and data that fit, the problem is made of the data. -/
theorem problem_eq_ok {d : KktData} {c₁ c₂ : Literal} (h : d.cost = [c₁, c₂])
    (h₁ : c₁.fits .int64) (h₂ : c₂.fits .int64)
    (h₃ : d.capacity.fits .int64) (h₄ : d.radiusSq.fits .int64) :
    d.problem = .ok (⟨c₁.embed, c₂.embed, d.capacity.embed, d.radiusSq.embed⟩ : Kkt α) := by
  simp [problem, withCosts, datum, h, h₁, h₂, h₃, h₄, bind, Except.bind]

variable [Inhabited α]

/-- With two costs and data that fit, the residual at six unknowns is the one of the
problem. -/
theorem residual_ofVector (h : UniformKind α) {d : KktData} {p : Kkt α}
    (hp : d.problem = .ok p) (y : Vector α 6) :
    d.residual (.ofVector y) = .ok (.ofVector (p.residual y)) := by
  have hs : (Tensor.ofVector y).shape = [6] := rfl
  simp [residual, columnwise, Formula.likened_eq_ok h, hs, hp, bind, Except.bind]

omit [Inhabited α] in
/-- In an arithmetic with one kind of numbers a number is of the kind of any tensor. -/
theorem likeEntries_eq (h : UniformKind α) (y : Tensor α) : likeEntries y = id := by
  funext x
  unfold likeEntries
  split
  · simp [h.matched_eq]
  · rfl

/-- The Jacobian at six unknowns is the one of the problem. -/
theorem jacobian_ofVector (h : UniformKind α) (y : Vector α 6) :
    jacobian (.ofVector y) = .ok (.ofMatrix (Kkt.jacobian y)) := by
  have hs : (Tensor.ofVector y).shape = [6] := rfl
  simp [jacobian, h.accepted_eq_ok, likeEntries_eq h, Tensor.map, hs, bind, Except.bind]

end Laws

/-- The shape of the residual for unknowns of a kind and a shape. -/
def residualShape (d : KktData) (k : NumberKind) (y : Shape) : Except Fault Shape :=
  (d.residual (outlineOf k y)).map (·.shape)

/-- The shape of the Jacobian for unknowns of a kind and a shape. -/
def jacobianShape (k : NumberKind) (y : Shape) : Except Fault Shape :=
  (jacobian (outlineOf k y)).map (·.shape)

end KktData

end Stationary
