import Stationary.Literal
import Stationary.Newton

/-!
# Configurations

`Settings` is what a caller asks for, each field a setting of any kind, and the machine it is
asked on. `Solver.ofSettings` checks them in a fixed order and reports the first fault : the
Jacobian, the budget, the two tolerances, the linear method, the projection policy. What it
accepts is a `Solver`, which keeps tolerances and pivot threshold as they were given and the
policy as a text or a tuple. The pivot threshold is not looked at before it is needed.

An array of one number is compared like this number, and one of one text like this text; an
array of more entries or of none has no answer to a comparison.

`Solver.newton` is the iteration of a solver in an arithmetic, where the numbers of the
settings become numbers of the arithmetic.
-/

namespace Stationary

/-- What a caller asks for. -/
structure Settings where
  hasJacobian : Bool := true
  rtol : Setting := .float 0.0
  atol : Setting := .float 1e-6
  maxSteps : Setting := .int 100
  projection : Setting := .text nonnegative
  linearSolver : Setting := .text LinearMethod.lu.name
  pivotRtol : Setting := .nothing
  machine : Machine := {}

/-- Why settings are refused. -/
inductive SettingsError
  | missingJacobian
  | budgetNotAnInteger (given : Setting)
  | negativeBudget (given : Int)
  /-- The tolerance of this name is not a number at or above zero. -/
  | negativeTolerance (name : String) (given : Setting)
  /-- A tolerance of this kind cannot be compared with zero. -/
  | incomparableTolerance (kind : String)
  /-- A tolerance is an array of texts. -/
  | incomparableTexts
  | unknownMethod (given : Setting)
  /-- A setting is an array of so many entries other than one. -/
  | ambiguousArray (home : ArrayHome) (entries : Nat)
  | projectionNotASequence (kind : String)
  /-- What an array without axes holds has no elements. -/
  | projectionWithoutElements (kind : String)
  /-- The projection is a range with too many entries to be counted. -/
  | projectionTooLong
  /-- The elements of the projection cannot be held. -/
  | outOfMemory

namespace SettingsError

/-- The text of the error, where it has one of its own. -/
def message? : SettingsError → Option String
  | missingJacobian => some "NewtonRaphson requires an analytic jacobian_fn"
  | budgetNotAnInteger given =>
    some (given.textWith ("max_steps must be an integer, got " ++ given.shown))
  | negativeBudget given =>
    some (Setting.textWith (.int given) ("max_steps must be >= 0, got " ++ toString given))
  | negativeTolerance name given =>
    some (given.textWith (name ++ " must be >= 0, got " ++ given.printed))
  | incomparableTolerance kind =>
    some ("'>=' not supported between instances of '" ++ kind ++ "' and 'int'")
  | incomparableTexts => none
  | unknownMethod given =>
    some (given.textWith ("Unknown linear solver " ++ given.shown ++ "; expected one of ('" ++
      LinearMethod.lu.name ++ "', '" ++ LinearMethod.leastSquares.name ++ "')"))
  | ambiguousArray .host entries => some (PolicyError.ambiguityText entries)
  | ambiguousArray .device _ => none
  | projectionNotASequence kind =>
    some ("projection must be a string or a sequence, got <class '" ++ kind ++ "'>")
  | projectionWithoutElements kind => some ("'" ++ kind ++ "' object is not iterable")
  | projectionTooLong => some rangeTooLongText
  | outOfMemory => some ""

/-- The kind of the error. -/
def errorKind : SettingsError → ErrorKind
  | incomparableTolerance _ => .typeError
  | incomparableTexts => .typeError
  | projectionNotASequence _ => .typeError
  | projectionWithoutElements _ => .typeError
  | projectionTooLong => .overflowError
  | outOfMemory => .memoryError
  | _ => .valueError

end SettingsError

/-- The number that a setting is, if it is one. -/
def Setting.number? : Setting → Option Literal
  | .truth b => some (.whole (if b then 1 else 0))
  | .int i => some (.whole i)
  | .float x => some (.float x)
  | _ => none

/-- The number of a setting, be it in an array of its own; what is no number counts as
zero. -/
def Setting.literal (given : Setting) : Literal :=
  let number? :=
    match given with
    | .array _ _ contents =>
      match contents.leaves with
      | [x] => x.number?
      | _ => none
    | other => other.number?
  number?.getD (.whole 0)

/-- A tolerance can be computed with where integers are of a format : it fits, or it is an array
of numbers, which all do. -/
def Setting.checkFit (format : WholeFormat) : Setting → Except Failure Unit
  | .array _ .anything _ => .error .toleranceNotNumeric
  | .array _ _ _ => .ok ()
  | other => if other.literal.fits format then .ok () else .error .toleranceTooLarge

/-- The setting is an array with axes. -/
def Setting.hasAxes : Setting → Bool
  | .array _ _ contents => !contents.axes.isEmpty
  | _ => false

/-- An accepted configuration. -/
structure Solver where
  rtol : Setting
  atol : Setting
  maxSteps : Nat
  projection : Setting
  linearMethod : LinearMethod
  pivotRtol : Setting
  machine : Machine

namespace Solver

/-- The budget of steps, an integer at or above zero. -/
def checkBudget : Setting → Except SettingsError Nat
  | .int i => if i < 0 then .error (.negativeBudget i) else .ok i.toNat
  | other => .error (.budgetNotAnInteger other)

/-- A tolerance that is compared with zero by the setting `x`. -/
def checkSign (name : String) (given x : Setting) : Except SettingsError Setting :=
  match x.number? with
  | some number =>
    if number.atLeastZero then .ok given else .error (.negativeTolerance name given)
  | none => .error (.incomparableTolerance x.kind)

/-- A tolerance, a number at or above zero. -/
def checkTolerance (name : String) (given : Setting) : Except SettingsError Setting :=
  match given with
  | .array _ (.texts _) _ => .error .incomparableTexts
  | .array home _ contents =>
    match contents.leaves, contents.leaves.find? fun x => x.number?.isNone with
    | [x], _ => checkSign name given x
    | _, some x => .error (.incomparableTolerance x.kind)
    | xs, none => .error (.ambiguousArray home xs.length)
  | other => checkSign name other other

/-- The linear method of a setting. Arrays on a device hold no texts and equal none. -/
def checkMethod (given : Setting) : Except SettingsError LinearMethod :=
  let named (s : String) : Except SettingsError LinearMethod :=
    match LinearMethod.ofName? s with
    | some m => .ok m
    | none => .error (.unknownMethod given)
  match given with
  | .text s => named s
  | .array .host _ contents =>
    match contents.leaves with
    | [.text s] => named s
    | [_] => .error (.unknownMethod given)
    | xs => .error (.ambiguousArray .host xs.length)
  | other => .error (.unknownMethod other)

/-- The tuple of the elements that a policy has by `elements?`, or the cause why it has none.
The entries of a range are counted before they are written out. -/
def storedElements (machine : Machine) (cause : SettingsError)
    (elements? : Setting → Option (List Setting)) (given : Setting) :
    Except SettingsError Setting :=
  match given with
  | .range r =>
    if r.isTooLong then .error .projectionTooLong
    else if machine.mostItems < r.count then .error .outOfMemory
    else .ok (.tuple (Setting.integers r))
  | other =>
    match elements? other with
    | some items => .ok (.tuple items)
    | none => .error cause

/-- The policy as it is stored : a text, or a tuple of the elements. What an array holds is
gone through, be it a sequence or not. -/
def storedPolicy (machine : Machine) (given : Setting) : Except SettingsError Setting :=
  match given with
  | .text s => .ok (.text s)
  | .array _ _ contents =>
    storedElements machine (.projectionWithoutElements contents.kind) Setting.iterated? contents
  | other => storedElements machine (.projectionNotASequence other.kind) Setting.elements? other

/-- The solver of some settings, or the first fault. -/
def ofSettings (s : Settings) : Except SettingsError Solver := do
  if !s.hasJacobian then throw .missingJacobian
  let maxSteps ← checkBudget s.maxSteps
  let atol ← checkTolerance "atol" s.atol
  let rtol ← checkTolerance "rtol" s.rtol
  let linearMethod ← checkMethod s.linearSolver
  let projection ← storedPolicy s.machine s.projection
  pure
    { rtol := rtol
      atol := atol
      maxSteps := maxSteps
      projection := projection
      linearMethod := linearMethod
      pivotRtol := s.pivotRtol
      machine := s.machine }

end Solver

/-- The binary64 value of a number; what is no number counts as zero. -/
def Setting.toFloat (s : Setting) : Float :=
  s.literal.toFloat

/-- The pivot threshold of a setting. -/
def PivotThreshold.ofSetting {α : Type} [Elementary α] : Setting → PivotThreshold α
  | .nothing => .standard
  | .float r => .relative (Elementary.ofFloat r)
  | _ => .unusable

/-- The setting is an integer beyond the range of binary64. -/
def Setting.exceedsBinary64 : Setting → Bool
  | .int i => !fitsBinary64 i
  | _ => false

/-- The iteration of a solver in an arithmetic. -/
def Solver.newton (α : Type) [Elementary α] (s : Solver) : Newton α where
  rtol := s.rtol.literal.embed
  atol := s.atol.literal.embed
  maxSteps := s.maxSteps
  projection := s.projection
  linearMethod := s.linearMethod
  pivotRtol := .ofSetting s.pivotRtol
  checkTolerances := do
    s.rtol.checkFit s.machine.integers
    s.atol.checkFit s.machine.integers
  thresholdHasAxes := s.rtol.hasAxes || s.atol.hasAxes
  machine := s.machine

end Stationary
