import Stationary.Journal

/-!
# Logs

A log is what a journal says to a reader : one line for each note, with a level and at
most one norm, which stands at the end of the line. A reader asks for a least level.
-/

namespace Stationary

/-- How important a line is. -/
inductive LogLevel
  | debug
  | info
  | warning
  deriving DecidableEq

namespace LogLevel

/-- The name of a level. -/
def name : LogLevel → String
  | debug => "DEBUG"
  | info => "INFO"
  | warning => "WARNING"

/-- The place of a level in the order of importance. -/
def rank : LogLevel → Nat
  | debug => 0
  | info => 1
  | warning => 2

end LogLevel

/-- A norm as it is logged, with so many digits behind the point. -/
structure LoggedNorm where
  norm : Float
  places : Nat

/-- The text of a logged norm. -/
def LoggedNorm.text (x : LoggedNorm) : String :=
  Decimal.scientific x.places x.norm

/-- A line of a log. -/
structure LogLine where
  level : LogLevel
  text : String
  norm : Option LoggedNorm := none

/-- The whole text of a line. -/
def LogLine.message (l : LogLine) : String :=
  match l.norm with
  | none => l.text
  | some x => l.text ++ x.text

section Notes

variable {α : Type} [FloatFormat α] {n : Nat}

/-- A text that ends in a norm. -/
def normLine (level : LogLevel) (text : String) (x : α) (places : Nat) : LogLine where
  level := level
  text := text ++ "||F|| = "
  norm := some { norm := FloatFormat.toFloat x, places := places }

/-- The line of a note. -/
def Note.line : Note α → LogLine
  | unchecked =>
    { level := .debug, text := "Jacobian is not traceable; skipping the shape check" }
  | reached steps norm => normLine .debug ("step " ++ toString steps ++ ": ") norm 6
  | converged steps norm =>
    normLine .info ("converged after " ++ toString steps ++ " steps, ") norm 3
  | exhausted steps norm =>
    normLine .warning ("no convergence after " ++ toString steps ++ " steps, ") norm 3
  | stopped steps outcome =>
    { level := .warning
      text := "stopped after " ++ toString steps ++ " steps: " ++ outcome.name }

/-- The log of a journal. -/
def Journal.log (j : Journal α n) : List LogLine :=
  j.notes.map Note.line

end Notes

/-- The lines of at least a level. -/
def atLeast (level : LogLevel) (lines : List LogLine) : List LogLine :=
  lines.filter fun l => level.rank ≤ l.level.rank

end Stationary
