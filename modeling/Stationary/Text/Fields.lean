/-!
# Fields of a text

A text is a list of fields with a separator between each two of them, so it always has
at least one field. Cutting two texts with a separator between them gives the fields of
the one and then those of the other (`fields_append`), and a text without separator is
one field (`fields_of_notMem`).
-/

namespace Stationary.Text

/-- A character put in front of the first field. -/
def extendFirst (c : Char) : List (List Char) → List (List Char)
  | [] => [[c]]
  | f :: fs => (c :: f) :: fs

/-- The fields of a text. -/
def fields (separator : Char) : List Char → List (List Char)
  | [] => [[]]
  | c :: cs =>
    if c = separator then [] :: fields separator cs else extendFirst c (fields separator cs)

theorem fields_ne_nil (separator : Char) (s : List Char) : fields separator s ≠ [] := by
  cases s with
  | nil => simp [fields]
  | cons c cs =>
    unfold fields
    split
    · simp
    · cases fields separator cs <;> simp [extendFirst]

theorem extendFirst_append (c : Char) {fs : List (List Char)} (h : fs ≠ [])
    (gs : List (List Char)) : extendFirst c (fs ++ gs) = extendFirst c fs ++ gs := by
  cases fs with
  | nil => exact absurd rfl h
  | cons f fs => rfl

/-- The fields of two texts with a separator between them. -/
theorem fields_append (separator : Char) (s t : List Char) :
    fields separator (s ++ separator :: t) = fields separator s ++ fields separator t := by
  induction s with
  | nil => simp [fields]
  | cons c cs ih =>
    rw [List.cons_append, fields, fields, ih]
    split
    · rfl
    · exact extendFirst_append c (fields_ne_nil separator cs) _

/-- A text without separator is one field. -/
theorem fields_of_notMem {separator : Char} {s : List Char} (h : separator ∉ s) :
    fields separator s = [s] := by
  induction s with
  | nil => rfl
  | cons c cs ih =>
    simp only [List.mem_cons, not_or] at h
    rw [fields, if_neg (Ne.symm h.1), ih h.2]
    rfl

end Stationary.Text
