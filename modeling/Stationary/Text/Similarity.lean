/-!
# Similar texts

Two texts are compared by their common runs : the longest common run is found, the
earliest in the first text and then in the second one if there are several, and the
texts to the left of it and to the right of it are compared in turn. The similarity is
twice the number of characters in common runs beside the number of all characters.
`similar` picks those candidates that are similar enough, at most three of them.
-/

namespace Stationary.Text

/-- A common run : its place in the first text, its place in the second one, its length. -/
structure CommonRun where
  first : Nat
  second : Nat
  length : Nat

/-- The length of the common beginning. -/
def commonStart : List Char → List Char → Nat
  | c :: cs, d :: ds => if c = d then commonStart cs ds + 1 else 0
  | _, _ => 0

/-- The longer of two runs, and the first one if they are equally long. -/
def CommonRun.longer (r s : CommonRun) : CommonRun :=
  if r.length < s.length then s else r

/-- The longest common run. -/
def longestRun (a b : List Char) : CommonRun :=
  (List.range a.length).foldl (fun best i =>
    (List.range b.length).foldl (fun best j =>
      best.longer ⟨i, j, commonStart (a.drop i) (b.drop j)⟩) best) ⟨0, 0, 0⟩

/-- The number of characters in common runs, at most `fuel` runs deep. -/
def commonWithin : Nat → List Char → List Char → Nat
  | 0, _, _ => 0
  | fuel + 1, a, b =>
    let r := longestRun a b
    if r.length = 0 then 0
    else
      commonWithin fuel (a.take r.first) (b.take r.second) + r.length +
        commonWithin fuel (a.drop (r.first + r.length)) (b.drop (r.second + r.length))

/-- The number of characters in common runs. A run takes a character of the first text. -/
def common (a b : List Char) : Nat :=
  commonWithin a.length a b

/-- A similarity, as a quotient. -/
structure Similarity where
  common : Nat
  total : Nat

namespace Similarity

/-- The similarity of two texts. -/
def of (a b : String) : Similarity :=
  let a := a.toList
  let b := b.toList
  ⟨2 * Text.common a b, a.length + b.length⟩

/-- The similarity is at least six tenths. -/
def isEnough (s : Similarity) : Bool :=
  6 * s.total ≤ 10 * s.common

/-- The first similarity is the smaller one. -/
def less (s t : Similarity) : Bool :=
  s.common * t.total < t.common * s.total

end Similarity

/-- A candidate comes before another one if it is more similar, or equally similar and
later in the alphabet. -/
def ranksBefore (word x y : String) : Bool :=
  let s := Similarity.of x word
  let t := Similarity.of y word
  t.less s || (!s.less t && y ≤ x)

/-- The at most three candidates that are most similar to a word, in alphabetical order. -/
def similar (word : String) (candidates : List String) : List String :=
  let near := candidates.filter fun x => (Similarity.of x word).isEnough
  ((near.mergeSort (ranksBefore word)).take 3).mergeSort fun x y => x ≤ y

end Stationary.Text
