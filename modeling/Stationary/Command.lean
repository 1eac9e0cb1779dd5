import Stationary.Command.Help
import Stationary.Command.Request
import Stationary.Configuration
import Stationary.Flushed
import Stationary.Kkt
import Stationary.Log
import Stationary.Run

/-!
# The command

The command solves the standard reference problem from a guess, in binary64 or in
binary32, and says how it went : with a report and exit code 0, with an error and exit
code 1 if no solution was found, or with a usage error and exit code 2. `execute` is the
whole command as a function of its arguments and the width of its help page. It may escape
these ends (`Escape`) : by a solver that refuses the settings, of which only a tolerance
that is undefined can come from arguments, and by a run that never ends.
-/

namespace Stationary.Command

/-- A line on standard output, with the number it ends with. -/
structure ReportLine where
  text : String
  number : Option Float := none

/-- The whole text of a line. -/
def ReportLine.message (l : ReportLine) : String :=
  match l.number with
  | none => l.text
  | some x => l.text ++ Decimal.plain x

/-- Who writes a line of the log. -/
inductive LogSource
  | command
  | iteration

/-- The name of a source, as it stands in front of its lines. -/
def LogSource.name : LogSource → String
  | command => "newton_jax.cli"
  | iteration => "newton_jax.solver"

/-- A line on standard error. -/
inductive ErrorLine
  | text (s : String)
  | log (source : LogSource) (line : LogLine)
  /-- A number of the guess is too large for the format. -/
  | overflow

/-- How the command ends. -/
structure Result where
  exitCode : Nat
  output : List ReportLine := []
  errors : List ErrorLine := []

/-- What keeps a command from its end. -/
inductive Escape
  | refused (error : SettingsError)
  /-- The run goes on for ever. -/
  | endless

/-- The text of what is reported instead of an end. -/
def Escape.message : Escape → String
  | refused error => error.message?.getD ""
  | endless => ""

/-- The end of a command that was called wrongly. -/
def refuse (e : UsageError) : Result where
  exitCode := 2
  errors :=
    (if e.showsUsage then [.text usageLine, .text helpHint, .text ""] else []) ++
      [.text ("Error: " ++ e.message)]

/-- The end of a command that shows its help page. -/
def showHelp (width : Nat) : Result where
  exitCode := 0
  output := (helpPage width).map fun s => { text := s }

/-- The projection policy of a clamping. -/
def Clamping.policy : Clamping → Setting
  | all => .text nonnegative
  | kkt => .tuple (Kkt.inequalityTags.map .int)
  | none => .text unclamped

namespace Request

/-- The settings of the solver. -/
def settings (r : Request) : Settings where
  atol := .float r.tolerance
  maxSteps := .int r.budget
  projection := r.clamping.policy
  linearSolver := .text r.method.name
  machine := { wide := r.wide }

/-- The least level that is logged. -/
def logLevel (r : Request) : LogLevel :=
  match r.verbosity with
  | 0 => .warning
  | 1 => .info
  | _ => .debug

/-- The first line of the log. -/
def openingLine (r : Request) : LogLine where
  level := .info
  text :=
    "solving " ++ toString Kkt.size ++ "-variable system (max_iterations=" ++
      toString r.budget ++ ", tolerance=" ++ Decimal.general 6 r.tolerance ++ ", solver=" ++
      r.method.name ++ ")"

/-- The guess, or the standard one. -/
def start? (r : Request) : Except UsageError (Vector Float 6) :=
  match r.guess with
  | .none => .ok ((Kkt.initialGuess : Vector Binary64 6).map FloatFormat.toFloat)
  | some xs =>
    if h : xs.length = 6 then .ok ⟨xs.toArray, by simpa using h⟩
    else .error (.guessSize Kkt.size xs.length)

end Request

section Report

variable {α : Type} [Scalar α] [FloatFormat α]

/-- A line that ends in a number of the format. -/
def numberLine (text : String) (x : α) : ReportLine where
  text := text ++ " = "
  number := some (FloatFormat.toFloat x)

/-- The lines of the products of multipliers and inequalities. -/
def productLines (products : Vector α 3) : List ReportLine :=
  products.toList.mapIdx fun i x =>
    let k := toString (i + 1)
    numberLine ("lambda" ++ k ++ " * g" ++ k ++ "(x)") x

/-- The report on a solution. -/
def report (s : Solution α 6) : List ReportLine :=
  let y := s.value
  let p : Kkt α := .standard
  [{ text := "Solution found in " ++ toString s.steps ++ " iterations:" }] ++
    List.zipWith numberLine Kkt.labels y.toList ++
    [numberLine "Objective f(x*)" (p.objective y),
      { text := "" },
      { text := "Complementarity check:" }] ++
    productLines (p.complementarity y)

/-- The text for a run that found no solution. -/
def failureText (s : Solution α 6) : String :=
  match s.outcome with
  | .singularJacobian =>
    "No solution found: singular Jacobian after " ++ toString s.steps ++
      " iterations. Try --linear-solver lstsq or another starting point."
  | .nonFinite =>
    "No solution found: residual became non-finite after " ++ toString s.steps ++ " iterations."
  | _ =>
    "No solution found after " ++ toString s.steps ++ " iterations (residual norm " ++
      Decimal.general 6 (FloatFormat.toFloat s.residualNorm) ++ ")."

/-- The end of a command whose run has a solution. -/
def conclude (s : Solution α 6) : Result :=
  if s.converged then { exitCode := 0, output := report s }
  else { exitCode := 1, errors := [.text ("Error: " ++ failureText s)] }

end Report

/-- The end of a command whose run failed. -/
def concludeFailure (cause : Failure) : Result where
  exitCode := 1
  errors := [.text ("Error: " ++ cause.message?.getD "")]

/-- The end that the result of a run makes, if it has one. -/
def conclusion {α : Type} [Scalar α] [FloatFormat α] :
    Except Failure (Solution α 6) → Except Escape Result
  | .ok s => .ok (conclude s)
  | .error .endless => .error .endless
  | .error cause => .ok (concludeFailure cause)

/-- Some number of the guess is finite, but not so in the format. -/
def overflows (α : Type) [Scalar α] [FloatFormat α] (y : Vector Float 6) : Bool :=
  y.any fun x => x.isFinite && !Scalar.isFinite (FloatFormat.ofFloat x : α)

/-- The lines of the log that a request asks for. -/
def Request.logLines (r : Request) (source : LogSource) (lines : List LogLine) :
    List ErrorLine :=
  (atLeast r.logLevel lines).map fun l => .log source l

/-- The run of a solver from a guess, in a format. -/
def runIn (α : Type) [Elementary α] [FloatFormat α] [Decomposes α] (r : Request)
    (solver : Solver) (y : Vector Float 6) : Except Escape Result := do
  let system : System α 6 := (Kkt.standard : Kkt α).system
  let (result, journal) :=
    ((solver.newton α).run system (y.map FloatFormat.ofFloat)).start
  let ending ← conclusion result
  .ok
    { ending with
      errors :=
        r.logLines .command [r.openingLine] ++ (if overflows α y then [.overflow] else []) ++
          r.logLines .iteration journal.log ++ ending.errors }

/-- The end of a command with a request. -/
def fulfil (r : Request) : Except Escape Result :=
  match r.start? with
  | .error e => .ok (refuse e)
  | .ok y => do
    let solver ← (Solver.ofSettings r.settings).mapError .refused
    if r.wide then runIn Binary64 r solver y else runIn Binary32 r solver y

/-- The command as a function of its arguments and of the width of a page. -/
def execute (width : Nat) (arguments : List String) : Except Escape Result :=
  match task arguments with
  | .error e => .ok (refuse e)
  | .ok .showHelp => .ok (showHelp width)
  | .ok (.solve r) => fulfil r

end Stationary.Command
