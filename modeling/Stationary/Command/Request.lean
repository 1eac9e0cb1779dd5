import Stationary.Command.Scan
import Stationary.Guess
import Stationary.LinearStep
import Stationary.Projection

/-!
# Requests

A request is what the arguments of the command ask for. Parameters are converted in the
order in which they were first given, each at its last value; what is not given has a
default. A request is refused with a usage error, whose text names the switch. Extra
arguments are refused only when all parameters are in order.
-/

namespace Stationary.Command

/-- Which components are clamped. -/
inductive Clamping
  | all
  | kkt
  | none
  deriving DecidableEq

namespace Clamping

/-- The name of a clamping. -/
def name : Clamping → String
  | all => "all"
  | kkt => "kkt"
  | none => "none"

/-- All clampings. -/
def choices : List Clamping := [all, kkt, none]

/-- The clamping of a name. -/
def ofName? (s : String) : Option Clamping :=
  choices.find? fun c => c.name = s

end Clamping

/-- What the arguments ask for. -/
structure Request where
  guess : Option (List Float) := .none
  budget : Nat := 100
  tolerance : Float := 1e-6
  clamping : Clamping := .all
  method : LinearMethod := .lu
  wide : Bool := true
  verbosity : Nat := 0

/-- Why arguments are refused. -/
inductive UsageError
  | scan (error : ScanError)
  | notAnInteger (p : Parameter) (text : String)
  | negativeInteger (p : Parameter) (value : Int)
  | notANumber (p : Parameter) (text : String)
  | negativeNumber (p : Parameter) (value : Float)
  | noChoice (p : Parameter) (text : String) (choices : List String)
  | noGuess (p : Parameter)
  | guessSize (expected got : Nat)
  | extraArguments (arguments : List String)

namespace ScanError

/-- The text of the error. -/
def message : ScanError → String
  | unknown spelling alike =>
    let shown := alike.map Text.quoted
    "No such option " ++ Text.quoted spelling ++ "." ++
      match shown with
      | [] => ""
      | [one] => " Did you mean " ++ one ++ "?"
      | several => " (Did you mean one of: " ++ String.intercalate ", " several ++ "?)"
  | missingValue spelling => "Option " ++ Text.quoted spelling ++ " requires an argument."
  | unexpectedValue spelling =>
    "Option " ++ Text.quoted spelling ++ " does not take a value."

/-- The usage is shown above the text. -/
def showsUsage : ScanError → Bool
  | unknown _ _ => true
  | _ => false

end ScanError

namespace UsageError

/-- A text about the value of a parameter. -/
def invalidValue (hint text : String) : String :=
  "Invalid value for " ++ hint ++ ": " ++ text

/-- The text of the error. -/
def message : UsageError → String
  | scan error => error.message
  | notAnInteger p text =>
    invalidValue p.hint (Text.quoted text ++ " is not a valid integer range.")
  | negativeInteger p value =>
    invalidValue p.hint (toString value ++ " is not in the range x>=0.")
  | notANumber p text =>
    invalidValue p.hint (Text.quoted text ++ " is not a valid float range.")
  | negativeNumber p value =>
    invalidValue p.hint (Decimal.plain value ++ " is not in the range x>=0.0.")
  | noChoice p text choices =>
    invalidValue p.hint (Text.quoted text ++ " is not one of " ++
      String.intercalate ", " (choices.map Text.quoted) ++ ".")
  | noGuess p => invalidValue p.hint guessHint
  | guessSize expected got =>
    invalidValue "--initial-guess" ("expected " ++ toString expected ++ " values, got " ++
      toString got)
  | extraArguments arguments =>
    "Got unexpected extra argument" ++ (if arguments.length = 1 then " (" else "s (") ++
      String.intercalate " " arguments ++ ")"

/-- The usage is shown above the text. -/
def showsUsage : UsageError → Bool
  | scan error => error.showsUsage
  | _ => true

end UsageError

/-- The last value given for a parameter. -/
def lastValue (given : List Given) (p : Parameter) : String :=
  given.foldl (fun last g =>
    match g with
    | .value q text => if q = p then text else last
    | _ => last) ""

/-- An integer at or above zero. -/
def readBudget (p : Parameter) (text : String) : Except UsageError Nat :=
  match Decimal.readInt? text.toList with
  | none => .error (.notAnInteger p text)
  | some i => if i < 0 then .error (.negativeInteger p i) else .ok i.toNat

/-- A number that is not below zero. -/
def readTolerance (p : Parameter) (text : String) : Except UsageError Float :=
  match Decimal.readFloat? text.toList with
  | none => .error (.notANumber p text)
  | some x => if x < 0 then .error (.negativeNumber p x) else .ok x

/-- A choice by its name. -/
def readChoice {β : Type} (p : Parameter) (ofName? : String → Option β)
    (choices : List String) (text : String) : Except UsageError β :=
  match ofName? text with
  | some b => .ok b
  | none => .error (.noChoice p text choices)

/-- A guess of any number of numbers. -/
def readGuess (p : Parameter) (text : String) : Except UsageError (List Float) :=
  match guess? text.toList with
  | some xs => .ok xs
  | none => .error (.noGuess p)

namespace Request

/-- The request with one parameter at the text given for it. -/
def withValue (r : Request) (p : Parameter) (text : String) : Except UsageError Request :=
  match p with
  | .initialGuess => (readGuess p text).map fun xs => { r with guess := some xs }
  | .maxIterations => (readBudget p text).map fun n => { r with budget := n }
  | .tolerance => (readTolerance p text).map fun x => { r with tolerance := x }
  | .projection =>
    (readChoice p Clamping.ofName? (Clamping.choices.map (·.name)) text).map fun c =>
      { r with clamping := c }
  | .linearSolver =>
    (readChoice p LinearMethod.ofName? [LinearMethod.lu.name, LinearMethod.leastSquares.name]
      text).map fun m => { r with method := m }
  | _ => .ok r

/-- The request with one thing that was given, at the last value of its parameter. -/
def withGiven (all : List Given) (r : Request) : Given → Except UsageError Request
  | .value p _ => r.withValue p (lastValue all p)
  | .decision p answer => .ok (if p = .precision then { r with wide := answer } else r)
  | .count _ => .ok { r with verbosity := r.verbosity + 1 }

end Request

/-- What the command is to do. -/
inductive Task
  | showHelp
  | solve (request : Request)

/-- The task of a list of arguments. -/
def task (arguments : List String) : Except UsageError Task :=
  match scan arguments with
  | .error e => .error (.scan e)
  | .ok s =>
    if s.given.any fun g => g.parameter = .help then .ok .showHelp
    else do
      let r ← s.given.foldlM (Request.withGiven s.given) {}
      if s.extra.isEmpty then .ok (.solve r) else .error (.extraArguments s.extra)

end Stationary.Command
