import Stationary.Command.Switch
import Stationary.Text.Similarity

/-!
# Scanning arguments

`scan` sorts the arguments of the command into switches, with their values, and extra
arguments. An argument that begins with a dash is a long switch, which may carry its
value behind an equals sign, or a cluster of short switches, of which the last one may
carry its value. A switch that takes a value and carries none takes the next argument,
whatever it looks like. Two dashes alone end the switches, a single dash is an extra
argument.
-/

namespace Stationary.Command

open Text

/-- A parameter as it was given. -/
inductive Given
  | value (p : Parameter) (text : String)
  | decision (p : Parameter) (answer : Bool)
  | count (p : Parameter)

/-- The parameter that was given. -/
def Given.parameter : Given → Parameter
  | value p _ => p
  | decision p _ => p
  | count p => p

/-- Why arguments cannot be sorted. -/
inductive ScanError
  /-- There is no such switch; others are spelled alike. -/
  | unknown (spelling : String) (alike : List String)
  | missingValue (spelling : String)
  | unexpectedValue (spelling : String)

/-- The arguments, sorted. -/
structure Scan where
  given : List Given
  extra : List String

/-- What one argument says : parameters, and at most one switch that waits for a value. -/
structure Reading where
  given : List Given
  waiting : Option Switch

/-- A switch that carries no value. -/
def Switch.alone (s : Switch) : Reading :=
  match s.effect with
  | .takesValue => { given := [], waiting := some s }
  | .decides answer => { given := [.decision s.parameter answer], waiting := none }
  | .counts => { given := [.count s.parameter], waiting := none }

/-- A switch that carries a value. -/
def Switch.carrying (s : Switch) (text : String) : Except ScanError Reading :=
  match s.effect with
  | .takesValue => .ok { given := [.value s.parameter text], waiting := none }
  | _ => .error (.unexpectedValue s.spelling)

/-- A cluster of short switches, without the dash. -/
def readCluster : List Char → Except ScanError Reading
  | [] => .ok { given := [], waiting := none }
  | c :: cs =>
    match Switch.ofLetter? c with
    | none => .error (.unknown (String.ofList ['-', c]) [])
    | some s =>
      if s.effect = .takesValue && !cs.isEmpty then s.carrying (String.ofList cs)
      else do
        let rest ← readCluster cs
        .ok { given := s.alone.given ++ rest.given, waiting := s.alone.waiting.or rest.waiting }

/-- The name of a long switch and the value it carries. -/
def splitValue (argument : List Char) : String × Option String :=
  let name := String.ofList (argument.takeWhile (· ≠ '='))
  match argument.dropWhile (· ≠ '=') with
  | [] => (name, none)
  | _ :: value => (name, some (String.ofList value))

/-- An argument that begins with a dash. -/
def readSwitches (argument : List Char) : Except ScanError Reading :=
  let (name, value) := splitValue argument
  match Switch.ofLong? name, value with
  | some s, none => .ok s.alone
  | some s, some text => s.carrying text
  | none, _ =>
    match argument with
    | '-' :: '-' :: _ => .error (.unknown name (similar name (Switch.long.map (·.spelling))))
    | _ => readCluster argument.tail

/-- The argument begins with a dash and is more than that. -/
def isSwitches : List Char → Bool
  | '-' :: _ :: _ => true
  | _ => false

/-- The arguments, sorted. -/
def scan : List String → Except ScanError Scan
  | [] => .ok { given := [], extra := [] }
  | argument :: rest =>
    if argument = "--" then .ok { given := [], extra := rest }
    else if isSwitches argument.toList then
      match readSwitches argument.toList with
      | .error e => .error e
      | .ok r =>
        match r.waiting, rest with
        | none, rest => do
          let more ← scan rest
          .ok { more with given := r.given ++ more.given }
        | some s, [] => .error (.missingValue s.spelling)
        | some s, value :: rest => do
          let more ← scan rest
          .ok { more with given := r.given ++ .value s.parameter value :: more.given }
    else do
      let more ← scan rest
      .ok { more with extra := argument :: more.extra }
termination_by arguments => arguments.length

end Stationary.Command
