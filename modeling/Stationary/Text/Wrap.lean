/-!
# Wrapped text

A text is wrapped by filling each line with as many words as fit. Blanks between two words
of a line stay as many as they were, and those at a break are dropped. No line is longer
than the width as long as no word is (`length_le_of_mem_fill`), and all that is lost are
blanks (`filter_flatten_fill`).
-/

namespace Stationary.Text

/-- The words of a text, each with the number of blanks before it. The first arguments are
the blanks and the letters, in reverse, of the word that is being read. -/
def gappedWords : Nat → List Char → List Char → List (Nat × List Char)
  | gap, word, [] => if word.isEmpty then [] else [(gap, word.reverse)]
  | gap, word, c :: cs =>
    if c = ' ' then
      if word.isEmpty then gappedWords (gap + 1) [] cs
      else (gap, word.reverse) :: gappedWords 1 [] cs
    else gappedWords gap (c :: word) cs

/-- Lines filled with words, of which the first one has begun. -/
def fill (width : Nat) : List Char → List (Nat × List Char) → List (List Char)
  | line, [] => [line]
  | line, (gap, word) :: rest =>
    if line.length + gap + word.length ≤ width then
      fill width (line ++ List.replicate gap ' ' ++ word) rest
    else line :: fill width word rest

theorem length_le_of_mem_fill {width : Nat} {words : List (Nat × List Char)} {line l : List Char}
    (hline : line.length ≤ width) (hwords : ∀ w ∈ words, w.2.length ≤ width)
    (hl : l ∈ fill width line words) : l.length ≤ width := by
  induction words generalizing line with
  | nil =>
    simp only [fill, List.mem_singleton] at hl
    exact hl ▸ hline
  | cons w rest ih =>
    obtain ⟨gap, word⟩ := w
    have hrest : ∀ w ∈ rest, w.2.length ≤ width := fun w h => hwords w (List.mem_cons_of_mem _ h)
    unfold fill at hl
    split at hl
    · exact ih (by simp; omega) hrest hl
    · rcases List.mem_cons.mp hl with h | h
      · exact h ▸ hline
      · exact ih (hwords (gap, word) (List.mem_cons_self ..)) hrest h

theorem filter_flatten_fill (width : Nat) (words : List (Nat × List Char)) (line : List Char) :
    (fill width line words).flatten.filter (· ≠ ' ') =
      (line ++ words.flatMap (·.2)).filter (· ≠ ' ') := by
  induction words generalizing line with
  | nil => simp [fill]
  | cons w rest ih =>
    obtain ⟨gap, word⟩ := w
    have hgap : (List.replicate gap ' ').filter (· ≠ ' ') = [] := by simp
    unfold fill
    split
    · rw [ih]
      simp only [List.flatMap_cons, List.append_assoc, List.filter_append, hgap, List.nil_append]
    · rw [List.flatten_cons, List.filter_append, ih]
      simp only [List.flatMap_cons, List.filter_append]

/-- A text wrapped to a width; there are no lines of no words. -/
def wrap (width : Nat) (text : String) : List String :=
  match gappedWords 0 [] text.toList with
  | [] => []
  | (_, word) :: rest => (fill width word rest).map String.ofList

end Stationary.Text
