import Stationary.Decimal.Reading
import Stationary.Text.Fields

/-!
# Guesses

A guess is a text of numbers with commas between them. Blank fields do not count, so a
guess may have commas at its ends, and the empty guess has no numbers. Every other field
must be the text of a number. `guess?_append` says that two guesses with a comma between
them are read one after the other.
-/

namespace Stationary

open Text Decimal

/-- The field holds nothing but blanks. -/
def isBlankField (field : List Char) : Bool :=
  field.all isBlank

/-- The numbers of the fields that are not blank, unless one of them is no number. -/
def numbers? : List (List Char) → Option (List Float)
  | [] => some []
  | f :: fs =>
    if isBlankField f then numbers? fs
    else
      match readFloat? f, numbers? fs with
      | some x, some xs => some (x :: xs)
      | _, _ => none

/-- The numbers of a guess. -/
def guess? (text : List Char) : Option (List Float) :=
  numbers? (fields ',' text)

/-- What is said of a text that is no guess. -/
def guessHint : String :=
  "expected comma-separated numbers, e.g. 1,1,1,1,1,1"

/-- The numbers of two lists of fields, one after the other. -/
theorem numbers?_append (fs gs : List (List Char)) :
    numbers? (fs ++ gs) =
      (numbers? fs).bind fun xs => (numbers? gs).map fun ys => xs ++ ys := by
  induction fs with
  | nil => simp [numbers?]
  | cons f fs ih =>
    simp only [List.cons_append, numbers?, ih]
    split
    · rfl
    · cases readFloat? f <;> cases numbers? fs <;> cases numbers? gs <;> simp

/-- Two guesses with a comma between them are read one after the other. -/
theorem guess?_append (s t : List Char) :
    guess? (s ++ ',' :: t) = (guess? s).bind fun xs => (guess? t).map fun ys => xs ++ ys := by
  rw [guess?, fields_append, numbers?_append]
  rfl

end Stationary
