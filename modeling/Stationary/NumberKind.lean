import Stationary.Operation
import Stationary.Whole

/-!
# Kinds of numbers

The numbers of an array are truth values, integers of a format, or numbers of one of two
binary formats. Integers and binary64 numbers that come from plain numbers have no format
of their own : they take the one of what they meet. Two numbers meet in the narrowest kind
that is above both of theirs (`NumberKind.join`), in whatever order
(`NumberKind.join_comm`).

`UnaryOp.kind` and `BinaryOp.kind` say of which kind the result of an operation is.
Division and the elementary functions leave the integers, for the binary format that
belongs to their width.
-/

namespace Stationary

/-- The kinds of numbers. -/
inductive NumberKind
  | truth
  /-- Integers without a format of their own. -/
  | anyWhole
  | whole (f : WholeFormat)
  /-- Binary64 numbers without a format of their own. -/
  | anyFloat
  | binary32
  | binary64
  deriving DecidableEq

namespace NumberKind

/-- The kind in which two numbers meet. -/
def join : NumberKind → NumberKind → NumberKind
  | truth, k => k
  | k, truth => k
  | anyWhole, k => k
  | k, anyWhole => k
  | whole f, whole g =>
    match f.join? g with
    | some h => whole h
    | none => anyFloat
  | whole _, k => k
  | k, whole _ => k
  | anyFloat, k => k
  | k, anyFloat => k
  | binary32, k => k
  | k, binary32 => k
  | binary64, binary64 => binary64

/-- Two numbers meet in the same kind in either order. -/
theorem join_comm (j k : NumberKind) : j.join k = k.join j := by
  cases j <;> cases k <;> simp [join, WholeFormat.join?_comm]

/-- Numbers of one kind meet in their own. -/
theorem join_self (k : NumberKind) : k.join k = k := by
  cases k <;> simp [join, WholeFormat.join?_self]

/-- The numbers of the kind are integers or truth values. -/
def isWhole : NumberKind → Bool
  | truth => true
  | anyWhole => true
  | whole _ => true
  | _ => false

/-- The format of the integers of a kind. -/
def wholeFormat : NumberKind → WholeFormat
  | whole f => f
  | _ => .int64

/-- The kind with a format of its own. -/
def settled : NumberKind → NumberKind
  | anyWhole => whole .int64
  | anyFloat => binary64
  | k => k

/-- The binary kind of quotients of the numbers of a kind. -/
def quotient : NumberKind → NumberKind
  | truth => binary32
  | anyWhole => anyFloat
  | whole f => if f.width = WholeFormat.int64.width then binary64 else binary32
  | k => k

/-- The numbers of a kind as numbers that can be multiplied. -/
def numeric : NumberKind → NumberKind
  | truth => whole .int32
  | k => k

end NumberKind

/-- The kind of the result of a function of one argument. -/
def UnaryOp.kind (op : UnaryOp) (k : NumberKind) : Except Refusal NumberKind :=
  match op with
  | neg => if k = .truth then .error .undefinedForKind else .ok k
  | abs => .ok k
  | _ => .ok k.quotient

/-- The kind of the result of a function of two arguments, which meet in a kind. -/
def BinaryOp.kind (op : BinaryOp) (k : NumberKind) : Except Refusal NumberKind :=
  match op with
  | sub => if k = .truth then .error .undefinedForKind else .ok k
  | div => .ok k.quotient
  | _ => .ok k

end Stationary
