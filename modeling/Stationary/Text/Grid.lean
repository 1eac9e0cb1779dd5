/-!
# Nested lists of words, laid out

The entries of an array are written as nested lists between brackets. The innermost lists
are lines, which are broken between two words where the next one would not fit; the lists
around them put each of their parts on a line of its own, with an empty line more for every
further axis. All that follows a break is indented by the brackets in front of it.

Of an array with very many entries only the edges are written : of each long list the first
and the last three parts, with dots between them.
-/

namespace Stationary.Text

/-- Blanks. -/
def blanks (n : Nat) : String :=
  String.ofList (List.replicate n ' ')

/-- The greatest width of a line of an array. -/
def gridWidth : Nat := 75

/-- A text without the blanks at its end. -/
def dropBlanksRight (cs : List Char) : List Char :=
  (cs.reverse.dropWhile (· == ' ')).reverse

/-- Words on lines, each but the first of which is indented. The first component holds the
lines that are full, the second one the line that is not. -/
def fillLines (indent width : Nat) : List String → List Char × List Char → List Char × List Char
  | [], state => state
  | word :: words, (full, line) =>
    let cs := word.toList ++ (if words.isEmpty then [] else [',', ' '])
    if width < line.length + word.length && indent < line.length then
      fillLines indent width words
        (full ++ dropBlanksRight line ++ ['\n'], List.replicate indent ' ' ++ cs)
    else fillLines indent width words (full, line ++ cs)

/-- Words between brackets, on as few lines as they need. -/
def lineOfWords (indent width : Nat) (words : List String) : String :=
  let (full, line) := fillLines indent (width - 1) words ([], List.replicate indent ' ')
  String.ofList ('[' :: (full ++ line).drop indent ++ [']'])

/-- The number of words in an array of a shape. -/
def wordCount (shape : List Nat) : Nat :=
  shape.foldr (· * ·) 1

/-- The greatest number of entries of which all are written. -/
def mostWords : Nat := 1000

/-- The number of parts that are written at each end of a long list. -/
def edgeLength : Nat := 3

/-- A list is written by its edges. -/
def isLong (isAbridged : Bool) (count : Nat) : Bool :=
  isAbridged && 2 * edgeLength < count

/-- The edges of a list, which are the list itself if it is not long. -/
def edges {α : Type} (isAbridged : Bool) (items : List α) : List α :=
  if isLong isAbridged items.length then
    items.take edgeLength ++ items.drop (items.length - edgeLength)
  else items

/-- The texts of the edges of a list of `count` parts, with dots where some are left out. -/
def withDots (isAbridged : Bool) (count : Nat) (texts : List String) : List String :=
  if isLong isAbridged count then texts.take edgeLength ++ "..." :: texts.drop edgeLength
  else texts

/-- The number of parts of a list that are written. -/
def edgeCount (isAbridged : Bool) (count : Nat) : Nat :=
  if isLong isAbridged count then 2 * edgeLength else count

/-- Consecutive parts of a list, each of so many elements. -/
def partsOf {α : Type} (size : Nat) : Nat → List α → List (List α)
  | 0, _ => []
  | count + 1, items => items.take size :: partsOf size count (items.drop size)

/-- The entries of an array of a shape that are written. -/
def edgeEntries {α : Type} (isAbridged : Bool) : List Nat → List α → List α
  | [], entries => entries
  | count :: inner, entries =>
    (edges isAbridged (partsOf (wordCount inner) count entries)).flatMap
      (edgeEntries isAbridged inner)

/-- The words of the written entries of an array of a shape as nested lists, inside `indent`
characters and with lines of at most `width`. -/
def grid (isAbridged : Bool) : List Nat → Nat → Nat → List String → String
  | [], _, _, words => words.headD ""
  | [count], indent, width, words =>
    lineOfWords indent width (withDots isAbridged count words)
  | count :: inner, indent, width, words =>
    let size := wordCount (inner.map (edgeCount isAbridged))
    let rows := (partsOf size (edgeCount isAbridged count) words).map
      (grid isAbridged inner (indent + 1) (width - 1))
    let breaks := String.ofList (List.replicate inner.length '\n')
    "[" ++ String.intercalate ("," ++ breaks ++ blanks indent) (withDots isAbridged count rows)
      ++ "]"

/-- The length of the last line of a text. -/
def lastLineLength (s : String) : Nat :=
  (s.toList.reverse.takeWhile (· != '\n')).length

end Stationary.Text
