import Stationary.Operation
import Stationary.Whole

/-!
# Numbers as they are written

A literal is a number as a caller writes it : an integer of any size, or a binary64
number. Literals have an arithmetic of their own, in which integers keep all their digits.
It has a result but for two causes : an integer beside a binary64 number, and the result of
a power, may be beyond the range of binary64, and zero has no negative power.
-/

namespace Stationary

/-- A number as it is written. -/
inductive Literal
  | whole (i : Int)
  | float (x : Float)

/-- The integer fits into 64 bits. -/
def fitsInt64 (i : Int) : Bool :=
  -9223372036854775808 ≤ i && i < 9223372036854775808

/-- The integer is within the range of binary64. -/
def fitsBinary64 (i : Int) : Bool :=
  (Float.ofInt i).isFinite

namespace Literal

instance : Inhabited Literal := ⟨.whole 0⟩

/-- The binary64 value. -/
def toFloat : Literal → Float
  | whole i => Float.ofInt i
  | float x => x

/-- The number can take part in the arithmetic of arrays, whose integers are of a format. -/
def fits (format : WholeFormat) : Literal → Bool
  | whole i => format.least ≤ i && i ≤ format.greatest
  | float _ => true

/-- The number in an arithmetic. -/
def embed {α : Type} [Elementary α] : Literal → α
  | whole i => Elementary.ofInt i
  | float x => Elementary.ofFloat x

/-- The binary64 value, if there is one. -/
def toFloat? : Literal → Except Refusal Float
  | whole i => if fitsBinary64 i then .ok (Float.ofInt i) else .error .tooLarge
  | float x => .ok x

/-- The literal with the other sign. -/
def neg : Literal → Literal
  | whole i => whole (-i)
  | float x => float (-x)

/-- Two literals combined, as integers if both are. -/
def combine (wholes : Int → Int → Int) (floats : Float → Float → Float) :
    Literal → Literal → Except Refusal Literal
  | whole i, whole j => .ok (whole (wholes i j))
  | l, m => do
    let x ← l.toFloat?
    let y ← m.toFloat?
    .ok (float (floats x y))

/-- The operations of the ring on two literals. -/
def ring? : BinaryOp → Option (Literal → Literal → Except Refusal Literal)
  | .add => some (combine (· + ·) (· + ·))
  | .sub => some (combine (· - ·) (· - ·))
  | .mul => some (combine (· * ·) (· * ·))
  | _ => none

/-- The power of a binary64 number. Neither it nor the exponent may leave the range of
binary64. -/
def floatPower (x : Float) (k : Int) : Except Refusal Literal :=
  if !fitsBinary64 k then .error .tooLarge
  else if x == 0 && k < 0 then .error .divisionByZero
  else
    let p := Float.pow x (Float.ofInt k)
    if x.isFinite && p.isInf then .error .tooLarge else .ok (float p)

/-- The power of an integer. The powers of an integer of magnitude at most one repeat, so
that no exponent is too great for them. -/
def wholePower (i : Int) (k : Nat) : Int :=
  if i.natAbs ≤ 1 then Int.pow i (if k = 0 then 0 else 2 - k % 2) else Int.pow i k

/-- Two more factors of magnitude at most one do not change a power that has one already. -/
theorem pow_add_two {i : Int} (h : i.natAbs ≤ 1) (k : Nat) :
    Int.pow i (k + 3) = Int.pow i (k + 1) := by
  have hi : i = -1 ∨ i = 0 ∨ i = 1 := by omega
  change i ^ (k + 3) = i ^ (k + 1)
  rcases hi with rfl | rfl | rfl <;> simp [Int.pow_succ]

/-- The exponents that stand for others give the same power. -/
theorem wholePower_eq (i : Int) : ∀ k : Nat, wholePower i k = Int.pow i k
  | 0 => by simp [wholePower]
  | 1 => by simp [wholePower]
  | 2 => by simp [wholePower]
  | k + 3 => by
    have ih := wholePower_eq i (k + 1)
    unfold wholePower at ih ⊢
    split
    · rename_i h
      have hk : (k + 3) % 2 = (k + 1) % 2 := by omega
      rw [if_pos h, if_neg (by omega)] at ih
      rw [pow_add_two h, if_neg (by omega), hk, ih]
    · rfl
/-- The power with an integer exponent. A negative power of an integer is a binary64
number. -/
def power (l : Literal) (k : Int) : Except Refusal Literal :=
  match l with
  | whole i =>
    if 0 ≤ k then .ok (whole (wholePower i k.toNat))
    else do
      let x ← l.toFloat?
      floatPower x k
  | float x => floatPower x k

/-- The literal is above zero. -/
def positive : Literal → Bool
  | whole i => 0 < i
  | float x => 0 < x

/-- The literal is zero or above. -/
def atLeastZero : Literal → Bool
  | whole i => 0 ≤ i
  | float x => 0 ≤ x

end Literal

end Stationary
