import Stationary.Text.Wrap

/-!
# The help page

The help page of the command for a width, and the two lines that stand above a usage
error. Options and their meanings stand in two columns; an option that is too long for its
column has a line of its own.
-/

namespace Stationary.Command

/-- The name of the command. -/
def commandName : String := "newton-kkt"

/-- How the command is called. -/
def usageLine : String :=
  "Usage: " ++ commandName ++ " [OPTIONS]"

/-- Where help is found. -/
def helpHint : String :=
  "Try '" ++ commandName ++ " --help' for help."

/-- So many blanks. -/
def blanks (n : Nat) : String :=
  String.ofList (List.replicate n ' ')

/-- The blanks in front of every line of a section. -/
def sectionIndent : Nat := 2

/-- The greatest width of an option. -/
def optionWidth : Nat := 30

/-- The column at which the meanings of the options begin. -/
def meaningColumn : Nat := sectionIndent + optionWidth + 2

/-- The width of a page on a terminal of eighty columns. -/
def pageWidth : Nat := 78

/-- A paragraph of the page. -/
def paragraph (width : Nat) (text : String) : List String :=
  (Text.wrap (width - sectionIndent) text).map fun line => blanks sectionIndent ++ line

/-- The lines of an option with its meaning. -/
def optionLines (width : Nat) (entry : String × String) : List String :=
  let option := blanks sectionIndent ++ entry.1
  let filled := option ++ blanks (meaningColumn - option.length)
  match Text.wrap (width - meaningColumn) entry.2 with
  | [] => [option]
  | first :: rest =>
    let below := rest.map fun line => blanks meaningColumn ++ line
    if entry.1.length ≤ optionWidth then (filled ++ first) :: below
    else option :: (blanks meaningColumn ++ first) :: below

/-- What the command does, and an example. -/
def introduction : List String :=
  ["Solve the Lagrangian stationarity system with Newton's method.",
    "Example:     " ++ commandName ++ "     " ++ commandName ++
      " --linear-solver lstsq --projection kkt -v"]

/-- The options with their meanings. -/
def optionTable : List (String × String) :=
  [("-x, --initial-guess TEXT",
      "Comma-separated starting values for x1,x2,lambda1,lambda2,lambda3,mu1 " ++
        "(default: all ones)"),
    ("-n, --max-iterations INTEGER RANGE",
      "Newton step budget  [default: 100; x>=0]"),
    ("-t, --tolerance FLOAT RANGE",
      "Convergence threshold on the residual norm  [default: 1e-06; x>=0.0]"),
    ("--projection [all|kkt|none]",
      "Components clamped at zero after each step: all unknowns, only the inequality " ++
        "multipliers, or none  [default: all]"),
    ("--linear-solver [lu|lstsq]", "Dense solver for the Newton step  [default: lu]"),
    ("--x64 / --no-x64", "Use 64-bit floating point  [default: x64]"),
    ("-v, --verbose", "-v for INFO, -vv for DEBUG"),
    ("--help", "Show this message and exit.")]

/-- The help page. -/
def helpPage (width : Nat) : List String :=
  [usageLine, ""] ++ introduction.flatMap (fun text => paragraph width text ++ [""]) ++
    ["Options:"] ++ optionTable.flatMap (optionLines width)

end Stationary.Command
