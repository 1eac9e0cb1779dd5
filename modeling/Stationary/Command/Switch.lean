/-!
# Switches of the command

The command has eight parameters. A parameter is given by a switch, which has a long
spelling with two dashes and may have a short one with a dash and a single letter. A
switch takes a value, decides something, or is counted.
-/

namespace Stationary.Command

/-- What can be asked of the command. -/
inductive Parameter
  | initialGuess
  | maxIterations
  | tolerance
  | projection
  | linearSolver
  | precision
  | verbosity
  | help
  deriving DecidableEq

/-- What a switch does. -/
inductive Effect
  | takesValue
  | decides (answer : Bool)
  | counts
  deriving DecidableEq

/-- A spelling with its parameter and its effect. -/
structure Switch where
  spelling : String
  parameter : Parameter
  effect : Effect

namespace Switch

/-- The switches with long spellings. -/
def long : List Switch :=
  [⟨"--initial-guess", .initialGuess, .takesValue⟩,
    ⟨"--max-iterations", .maxIterations, .takesValue⟩,
    ⟨"--tolerance", .tolerance, .takesValue⟩,
    ⟨"--projection", .projection, .takesValue⟩,
    ⟨"--linear-solver", .linearSolver, .takesValue⟩,
    ⟨"--x64", .precision, .decides true⟩,
    ⟨"--no-x64", .precision, .decides false⟩,
    ⟨"--verbose", .verbosity, .counts⟩,
    ⟨"--help", .help, .decides true⟩]

/-- The switches with short spellings. -/
def short : List Switch :=
  [⟨"-x", .initialGuess, .takesValue⟩,
    ⟨"-n", .maxIterations, .takesValue⟩,
    ⟨"-t", .tolerance, .takesValue⟩,
    ⟨"-v", .verbosity, .counts⟩]

/-- The switch of a long spelling. -/
def ofLong? (spelling : String) : Option Switch :=
  long.find? fun s => s.spelling = spelling

/-- The switch of a letter. -/
def ofLetter? (c : Char) : Option Switch :=
  short.find? fun s => s.spelling = String.ofList ['-', c]

end Switch

/-- The spellings of a parameter, as a message names them. -/
def Parameter.hint (p : Parameter) : String :=
  String.intercalate " / " (((Switch.long ++ Switch.short).filter fun s => s.parameter = p).map
    fun s => "'" ++ s.spelling ++ "'")

end Stationary.Command
