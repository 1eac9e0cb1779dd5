import Mathlib.Data.List.Forall2
import Stationary.Command.Request

/-!
# Guesses and their fields

A text is its fields with commas between them, and a guess is read from those of its fields that
are not blank : their numbers in order, or nothing as soon as one of them is no number
(`guess?_eq_mapM`). So two texts with the same filled fields are the same guess, wherever blank
fields stand in them, and a list of fields that are numbers is read back from the text that joins
them (`guess?_intercalate`).

Whether a field counts and whether it is a number are different questions : a field of nothing but
blanks does not count, although the blanks around a number are not the same ones. A command
refuses a text that is no guess, and there is no other error (`readGuess_eq_error_iff`).
-/

namespace Stationary

open Text Decimal

/-! ## Fields -/

namespace Text

variable {separator : Char}

/-- Fields are what a list is split to at the separators. -/
theorem fields_eq_splitOn (separator : Char) (s : List Char) :
    fields separator s = s.splitOn separator := by
  induction s with
  | nil => rfl
  | cons c s ih =>
    have hfirst : ∀ fs, fs ≠ [] → extendFirst c fs = fs.modifyHead (c :: ·) := by
      intro fs hfs
      cases fs with
      | nil => exact absurd rfl hfs
      | cons f fs => rfl
    simp only [fields, List.splitOn_cons_eq_if_modifyHead, ih, beq_iff_eq]
    split
    · rfl
    · exact hfirst _ (List.splitOn_ne_nil _ _)

/-- Fields without a separator in them are those of the text that joins them. -/
theorem fields_intercalate {fs : List (List Char)} (h : ∀ f ∈ fs, separator ∉ f) (hne : fs ≠ []) :
    fields separator ([separator].intercalate fs) = fs := by
  rw [fields_eq_splitOn]
  exact List.splitOn_intercalate separator h hne

end Text

/-! ## Filled fields -/

/-- The fields of a text that are not blank. -/
def filledFields (s : List Char) : List (List Char) :=
  (fields ',' s).filter fun f => !isBlankField f

theorem filledFields_append (s t : List Char) :
    filledFields (s ++ ',' :: t) = filledFields s ++ filledFields t := by
  rw [filledFields, fields_append, List.filter_append]
  rfl

/-- A blank text without a comma has no filled field. -/
theorem filledFields_of_blank {b : List Char} (hb : ',' ∉ b) (hblank : isBlankField b = true) :
    filledFields b = [] := by
  simp [filledFields, fields_of_notMem hb, hblank]

/-- Any other text without a comma is one filled field. -/
theorem filledFields_of_not_blank {s : List Char} (hs : ',' ∉ s) (hblank : isBlankField s = false) :
    filledFields s = [s] := by
  simp [filledFields, fields_of_notMem hs, hblank]

theorem filledFields_intercalate {fs : List (List Char)} (h : ∀ f ∈ fs, ',' ∉ f) :
    filledFields ([','].intercalate fs) = fs.filter fun f => !isBlankField f := by
  by_cases hne : fs = []
  · subst hne
    rfl
  · rw [filledFields, fields_intercalate h hne]

/-! ## Numbers -/

theorem numbers?_eq_mapM (fs : List (List Char)) :
    numbers? fs = (fs.filter fun f => !isBlankField f).mapM readFloat? := by
  induction fs with
  | nil => rfl
  | cons f fs ih =>
    unfold numbers?
    cases hblank : isBlankField f with
    | true => simp [hblank, ih]
    | false =>
      rw [List.filter_cons_of_pos (by simp [hblank]), List.mapM_cons, ← ih]
      cases readFloat? f with
      | none => rfl
      | some x => cases numbers? fs <;> rfl

/-- A guess is read from the filled fields of its text. -/
theorem guess?_eq_mapM (s : List Char) : guess? s = (filledFields s).mapM readFloat? :=
  numbers?_eq_mapM _

/-- Texts with the same filled fields are the same guess. -/
theorem guess?_congr {s t : List Char} (h : filledFields s = filledFields t) :
    guess? s = guess? t := by
  rw [guess?_eq_mapM, guess?_eq_mapM, h]

/-- The text that joins fields with the numbers `xs` is the guess `xs`. -/
theorem guess?_intercalate {fs : List (List Char)} {xs : List Float}
    (h : List.Forall₂ (fun f x => ',' ∉ f ∧ isBlankField f = false ∧ readFloat? f = some x) fs xs) :
    guess? ([','].intercalate fs) = some xs := by
  have hfields : ∀ f ∈ fs, ',' ∉ f ∧ isBlankField f = false := by
    intro f hf
    obtain ⟨i, hi, rfl⟩ := List.getElem_of_mem hf
    have hentry := h.get hi (h.length_eq ▸ hi)
    exact ⟨hentry.1, hentry.2.1⟩
  have hfilled : (fs.filter fun f => !isBlankField f) = fs :=
    List.filter_eq_self.2 fun f hf => by simp [(hfields f hf).2]
  rw [guess?_eq_mapM, filledFields_intercalate fun f hf => (hfields f hf).1, hfilled]
  clear hfields hfilled
  induction h with
  | nil => rfl
  | cons hf _ ih =>
    rw [List.mapM_cons, hf.2.2, ih]
    rfl

/-- A text is refused exactly if it is no guess, and for no other reason. -/
theorem Command.readGuess_eq_error_iff {p : Parameter} {text : String} {e : UsageError} :
    readGuess p text = .error e ↔ e = .noGuess p ∧ guess? text.toList = none := by
  unfold readGuess
  cases guess? text.toList <;> simp [eq_comm]

/-- Two texts with a comma between them are read one after the other, unless one of them is
refused. A text without a comma has no number if it is blank, and otherwise it is a number or
refused. So blank fields can be put in and left out at either end and in between, however many,
and texts of numbers are read back from the text that joins them with commas, in order. There is
only one way to refuse a text. -/
theorem guess_is_read_by_fields :
    (∀ s t xs ys, guess? s = some xs → guess? t = some ys →
      guess? (s ++ ',' :: t) = some (xs ++ ys)) ∧
    (∀ s t, guess? (s ++ ',' :: t) = none ↔ guess? s = none ∨ guess? t = none) ∧
    (∀ s, ',' ∉ s → isBlankField s = true → guess? s = some []) ∧
    (∀ s, ',' ∉ s → isBlankField s = false → guess? s = (readFloat? s).map fun x => [x]) ∧
    (∀ s b t, ',' ∉ b → isBlankField b = true → guess? (b ++ ',' :: s) = guess? s ∧
      guess? (s ++ ',' :: b) = guess? s ∧
      guess? (s ++ ',' :: (b ++ ',' :: t)) = guess? (s ++ ',' :: t)) ∧
    (∀ s t, filledFields s = filledFields t → guess? s = guess? t) ∧
    (∀ fs xs, List.Forall₂ (fun f x => ',' ∉ f ∧ isBlankField f = false ∧ readFloat? f = some x)
      fs xs → guess? ([','].intercalate fs) = some xs) ∧
    ∀ p text e, Command.readGuess p text = .error e ↔
      e = .noGuess p ∧ guess? text.toList = none := by
  refine ⟨fun s t xs ys hs ht => ?_, fun s t => ?_, fun s hs hblank => ?_, fun s hs hblank => ?_,
    fun s b t hb hblank => ⟨guess?_congr ?_, guess?_congr ?_, guess?_congr ?_⟩,
    fun s t => guess?_congr, fun fs xs => guess?_intercalate,
    fun p text e => Command.readGuess_eq_error_iff⟩
  · rw [guess?_append, hs, ht]
    rfl
  · rw [guess?_append]
    cases guess? s <;> cases guess? t <;> simp
  · rw [guess?_eq_mapM, filledFields_of_blank hs hblank]
    rfl
  · rw [guess?_eq_mapM, filledFields_of_not_blank hs hblank, List.mapM_cons]
    cases readFloat? s <;> rfl
  · rw [filledFields_append, filledFields_of_blank hb hblank, List.nil_append]
  · rw [filledFields_append, filledFields_of_blank hb hblank, List.append_nil]
  · rw [filledFields_append, filledFields_append, filledFields_of_blank hb hblank, List.nil_append,
      filledFields_append]

/-- A blank field between two numbers does not count, and a field with a blank between its digits
is no number. -/
example : guess? "1, ,2".toList = some [1, 2] ∧ guess? "1, ,2 3".toList = none := by decide +kernel

end Stationary
