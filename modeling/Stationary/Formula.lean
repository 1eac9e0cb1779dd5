import Stationary.Jet
import Stationary.Mixed
import Stationary.System

/-!
# Formulas

A formula is a closed expression in the unknowns and in parameters, with tensors as
values. `Formula.eval` evaluates it in any arithmetic with elementary functions. A
conditional (`choice`) evaluates both sides and picks entries; a branch evaluates its
condition first and then one side only.

Constants are plain numbers, and what is computed from them alone stays plain as far as
the arithmetic has it so. Where numbers have only a kind (`Outline`), evaluation gives the
shape that the value is known to have in advance, and a branch on a condition that is not
known has none.

A `FormulaSystem` is a formula for the residual and one for the Jacobian, with the
parameters of both.
-/

namespace Stationary

/-- An expression in the unknowns and in parameters. -/
inductive Formula
  | constant (c : Literal)
  | unknown (i : Nat)
  | parameter (i : Nat)
  | unary (op : UnaryOp) (a : Formula)
  | binary (op : BinaryOp) (a b : Formula)
  | power (a : Formula) (k : Int)
  | choice (condition a b : Formula)
  | branch (condition a b : Formula)
  | array (parts : List Formula)

instance : Inhabited Formula := ⟨.constant (.whole 0)⟩

namespace Formula

/-- What the unknowns and the parameters of a formula stand for. -/
structure Environment (β : Type) where
  unknown : Nat → Except Fault β
  parameter : Nat → Except Fault β

section Evaluation

variable {α : Type} [Elementary α] [Inhabited α]

/-- The tensor with its numbers brought to one kind. -/
def likened (t : Tensor α) : Except Fault (Tensor α) :=
  (orFault .ragged (t.mapEntries? Elementary.alike)).bind accepted

omit [Inhabited α] in
/-- In an arithmetic with one kind of numbers there is nothing to bring to one kind. -/
theorem likened_eq_ok (h : UniformKind α) (t : Tensor α) : likened t = .ok t := by
  have hs : t.entries.size = t.shape.size := t.size_eq
  simp [likened, Tensor.mapEntries?, Tensor.ofArray?, h.alike_eq, hs, orFault, Except.bind,
    h.accepted_eq_ok]

/-- Tensors along a new first axis, with their numbers brought to one kind. That there is
such a kind is noticed before their shapes are compared. -/
def stackAlike (ts : List (Tensor α)) : Except Fault (Tensor α) := do
  let entries := ts.foldl (fun a t => a ++ t.entries) #[]
  let flat ← likened (.ofVector ⟨entries, rfl⟩)
  let stacked ← orFault .ragged (Tensor.stack? ts)
  orFault .ragged (Tensor.ofArray? stacked.shape flat.entries)

/-- The choice between the entries of two tensors. -/
def chooseEntries (c s t : Tensor α) : Except Fault (Tensor α) := do
  let pairs ← orFault .noCommonShape (s.zip? Prod.mk t)
  orFault .noCommonShape (c.zip? (fun c p => Elementary.choose c p.1 p.2) pairs)

/-- The condition of a branch. -/
def decided (c : Tensor α) : Except Fault Bool :=
  match c.entries.toList with
  | [x] => orFault .conditionNeedsValues (Elementary.positive? x)
  | _ => .error .ambiguousCondition

mutual

/-- The value. -/
def eval (env : Environment (Tensor α)) : Formula → Except Fault (Tensor α)
  | .constant c => .ok (.scalar c.embed)
  | .unknown i => env.unknown i
  | .parameter i => env.parameter i
  | .unary op a => do
    let x ← a.eval env
    accepted (x.map op.apply)
  | .power a k => do
    let x ← a.eval env
    accepted (x.map fun x => Elementary.power x k)
  | .binary op a b => do
    let s ← a.eval env
    let t ← b.eval env
    let r ← combined op.apply s t
    accepted r
  | .choice c a b => do
    let r ← c.eval env
    let s ← a.eval env
    let t ← b.eval env
    let u ← chooseEntries r s t
    accepted u
  | .branch c a b => do
    let r ← c.eval env
    let holds ← decided r
    if holds then a.eval env else b.eval env
  | .array parts => do
    let ts ← evalAll env parts
    stackAlike ts

/-- The values of several formulas. -/
def evalAll (env : Environment (Tensor α)) :
    List Formula → Except Fault (List (Tensor α))
  | [] => .ok []
  | a :: as => do
    let t ← a.eval env
    let ts ← evalAll env as
    .ok (t :: ts)

end

end Evaluation

end Formula

/-- A component of a tensor; one beyond the end is the last one. -/
def component {α : Type} (t : Tensor α) (i : Nat) : Except Fault (Tensor α) :=
  orFault .outOfBounds (t.part? i)

/-- A tensor of a shape whose numbers are known by their kind alone. -/
def outlineOf (k : NumberKind) (s : Shape) : Tensor Outline where
  shape := s
  entries := Array.replicate s.size (.entry .device k ())
  size_eq := by simp

/-- A residual and a Jacobian given by formulas. The Jacobian may need the unknowns as
numbers before it does anything; then it computes with them on the host, and has no
component beyond the end. -/
structure FormulaSystem where
  residualFormula : Formula
  jacobianFormula : Formula
  needsNumbers : Bool
  parameters : Option (Tensor Mixed)

namespace FormulaSystem

section Values

variable {α : Type} [Elementary α] [Inhabited α]

/-- A component of the parameters, which there may be none of. -/
def parameter (f : FormulaSystem) (embed : Mixed → α) (i : Nat) : Except Fault (Tensor α) :=
  match f.parameters with
  | none => .error .noParameters
  | some t => (component t i).map (·.map embed)

/-- The residual at a tensor. -/
def residual (f : FormulaSystem) (embed : Mixed → α) (y : Tensor α) :
    Except Fault (Tensor α) :=
  f.residualFormula.eval { unknown := component y, parameter := f.parameter embed }

end Values

/-- The Jacobian at a tensor. -/
def jacobian (f : FormulaSystem) (y : Tensor Mixed) : Except Fault (Tensor Mixed) :=
  f.jacobianFormula.eval
    { unknown := fun i =>
        if f.needsNumbers then orFault .outOfBounds ((y.map Kinded.onHost).exactPart? i)
        else component y i
      parameter := f.parameter id }

/-- The shape of the residual for unknowns of a kind and a shape. -/
def residualShape (f : FormulaSystem) (k : NumberKind) (y : Shape) : Except Fault Shape :=
  (f.residual Mixed.outline (outlineOf k y)).map (·.shape)

/-- The shape of the Jacobian for unknowns of a kind and a shape. -/
def jacobianShape (f : FormulaSystem) (k : NumberKind) (y : Shape) : Except Fault Shape :=
  if f.needsNumbers then .error .conversionNeedsValues
  else
    (f.jacobianFormula.eval
      { unknown := component (outlineOf k y), parameter := f.parameter Mixed.outline }).map
      (·.shape)

end FormulaSystem

end Stationary
