import Stationary.Literal
import Stationary.Machine
import Stationary.Setting
import Stationary.Vec

/-!
# Projection

After a step, selected components of the iterate are clamped at zero. Which ones is
said by a policy : the text `nonnegative` (all of them), the text `none`, or a sequence
with a tag for each component, zero or one. An array of one number is a tag like its
number, an array of more or none is no tag at all. `projectionMask` resolves a policy for a
number of components into a mask; a sequence is first checked for its length and then
entry by entry, so that the first invalid tag is the one reported. What an array holds is
resolved as the same policy without the array is (`maskOfElements`).

`clamp` applies a mask of the vector's own length. `project` applies a mask of any
length as arrays of unequal lengths are combined : a mask without a true entry leaves
the vector alone whatever its length, a mask of length one counts for every component.
-/

namespace Stationary

/-- The kinds of errors that a caller can tell apart. -/
inductive ErrorKind
  | valueError
  | typeError
  | overflowError
  | memoryError
  /-- A truth value was asked for before there are numbers. -/
  | conversionError
  deriving DecidableEq

/-- The name of a kind of errors. -/
def ErrorKind.name : ErrorKind → String
  | valueError => "ValueError"
  | typeError => "TypeError"
  | overflowError => "OverflowError"
  | memoryError => "MemoryError"
  | conversionError => "TracerBoolConversionError"

/-- Why a policy has no mask. -/
inductive PolicyError
  | unknownPolicy (name : String)
  | notASequence (kind : String)
  | wrongLength (entries : Nat) (components : Setting)
  | invalidTag (tag : Setting)
  /-- The number of components is no integer. -/
  | countNotAnInteger (kind : String)
  /-- The number of components is too large for a mask. -/
  | countTooLarge
  /-- A mask of so many components cannot be held. -/
  | outOfMemory
  /-- A range has too many entries to be counted. -/
  | rangeTooLong
  /-- A tag is an array on a device, whose numbers are not known. -/
  | unknownTag
  /-- A tag is an array of so many numbers other than one. -/
  | ambiguousTag (home : ArrayHome) (numbers : Nat)

namespace PolicyError

/-- The text of an array that is asked for its truth value. -/
def ambiguityText (numbers : Nat) : String :=
  if numbers = 0 then
    "The truth value of an empty array is ambiguous. " ++
      "Use `array.size > 0` to check that an array is not empty."
  else
    "The truth value of an array with more than one element is ambiguous. " ++
      "Use a.any() or a.all()"

/-- The text of the error, where it has one. -/
def message? : PolicyError → Option String
  | unknownPolicy name =>
    some ("Unknown projection policy " ++ Text.quoted name ++
      "; expected 'nonnegative', 'none' or a per-component sequence")
  | notASequence kind =>
    some ("Projection policy must be a string or a sequence, got <class '" ++ kind ++ "'>")
  | wrongLength entries components =>
    some (components.textWith
      ("Projection policy has " ++ toString entries ++ " entries but the state has " ++
        components.printed))
  | invalidTag tag => some (tag.textWith ("Invalid projection tag " ++ tag.shown))
  | countNotAnInteger kind =>
    some ("can't multiply sequence by non-int of type '" ++ kind ++ "'")
  | countTooLarge => some "cannot fit 'int' into an index-sized integer"
  | outOfMemory => some ""
  | rangeTooLong => some rangeTooLongText
  | unknownTag => none
  | ambiguousTag .host numbers => some (ambiguityText numbers)
  | ambiguousTag .device _ => none

/-- The kind of the error. -/
def errorKind : PolicyError → ErrorKind
  | notASequence _ => .typeError
  | countNotAnInteger _ => .typeError
  | countTooLarge => .overflowError
  | outOfMemory => .memoryError
  | rangeTooLong => .overflowError
  | unknownTag => .conversionError
  | _ => .valueError

end PolicyError

/-- The policy that clamps every component. -/
def nonnegative : String := "nonnegative"

/-- The policy that clamps no component. -/
def unclamped : String := "none"

/-- The entry of the mask for a tag. An array of one number counts as this number. -/
def readTag (t : Setting) : Except PolicyError Bool :=
  match t with
  | .array home _ contents =>
    match contents.leaves with
    | [x] =>
      match x.tag? with
      | some b => .ok b
      | none => .error (.invalidTag t)
    | xs => .error (.ambiguousTag home xs.length)
  | other =>
    match other.tag? with
    | some b => .ok b
    | none => .error (.invalidTag t)

/-- The mask of a list of tags, or the first tag that is none. -/
def maskOfTags : List Setting → Except PolicyError (List Bool)
  | [] => .ok []
  | t :: ts =>
    match readTag t with
    | .error e => .error e
    | .ok b => (maskOfTags ts).map (b :: ·)

/-- The mask of a sequence of tags for `n` components. -/
def maskOfSequence (items : List Setting) (n : Int) : Except PolicyError (List Bool) :=
  if (items.length : Int) = n then maskOfTags items
  else .error (.wrongLength items.length (.int n))

/-- The mask of `n` components that are all marked or all not. -/
def uniformMask (machine : Machine) (marked : Bool) (n : Int) :
    Except PolicyError (List Bool) :=
  if !fitsInt64 n then .error .countTooLarge
  else if machine.mostItems < n then .error .outOfMemory
  else .ok (List.replicate n.toNat marked)

/-- The mask of a text for `n` components. -/
def maskOfText (machine : Machine) (s : String) (n : Int) : Except PolicyError (List Bool) :=
  if s = nonnegative then uniformMask machine true n
  else if s = unclamped then uniformMask machine false n
  else .error (.unknownPolicy s)

/-- The mask of as many integers as tags, from `start` on in steps of `step`, or the first one
that is none. -/
def maskOfIntegers (step start : Int) : Nat → Except PolicyError (List Bool)
  | 0 => .ok []
  | count + 1 =>
    match readTag (.int start) with
    | .error e => .error e
    | .ok b => (maskOfIntegers step (start + step) count).map (b :: ·)

/-- The mask of a range for `n` components, which is not written out before its length is
compared. -/
def maskOfRange (r : IntegerRange) (n : Int) : Except PolicyError (List Bool) :=
  if r.isTooLong then .error .rangeTooLong
  else if (r.count : Int) = n then maskOfIntegers r.step r.start r.count
  else .error (.wrongLength r.count (.int n))

/-- The mask of the elements of a policy for `n` components. -/
def maskOfElements (policy : Setting) (n : Int) : Except PolicyError (List Bool) :=
  match policy with
  | .range r => maskOfRange r n
  | other =>
    match other.arrayItems? with
    | some items => maskOfSequence items n
    | none => .error (.notASequence other.kind)

/-- The mask of a policy for `n` components. An array counts as its nested lists. -/
def projectionMask (machine : Machine) (policy : Setting) (n : Int) :
    Except PolicyError (List Bool) :=
  match policy with
  | .text s => maskOfText machine s n
  | .array _ _ contents => maskOfElements contents n
  | other => maskOfElements other n

/-- The mask of a policy where the number of components may be no integer. Sequences are
compared with any number, a text is not repeated as often as one that is no integer. -/
def maskForCount (machine : Machine) (policy count : Setting) :
    Except PolicyError (List Bool) :=
  match policy, count with
  | .text s, .float _ =>
    (maskOfText machine s 0).bind fun _ => .error (.countNotAnInteger count.kind)
  | policy, _ =>
    match count.integer?, policy with
    | none, .text s =>
      (maskOfText machine s 0).bind fun _ => .error (.countNotAnInteger count.kind)
    | n, policy =>
      (projectionMask machine policy (n.getD (-1))).mapError fun
        | .wrongLength entries _ => .wrongLength entries count
        | e => e

/-- The tags before the first one whose number is not known must be tags. -/
def checkTags : List Setting → Except PolicyError Unit
  | [] => .ok ()
  | .array .device _ _ :: _ => .error .unknownTag
  | t :: ts =>
    match readTag t with
    | .error e => .error e
    | .ok _ => checkTags ts

/-- A policy whose mask is asked for before the numbers of arrays on a device are known,
other than those of the policy itself. -/
def checkKnownPolicy (machine : Machine) (policy : Setting) (n : Int) :
    Except PolicyError Unit :=
  match policy with
  | .tuple items =>
    if (items.length : Int) = n then checkTags items
    else .error (.wrongLength items.length (.int n))
  | other => (projectionMask machine other n).map fun _ => ()

theorem length_maskOfTags : ∀ {ts : List Setting} {m : List Bool},
    maskOfTags ts = .ok m → m.length = ts.length
  | [], _, h => by
    cases h
    rfl
  | t :: ts, m, h => by
    unfold maskOfTags at h
    split at h
    · cases h
    · cases hts : maskOfTags ts with
      | error e => simp [hts, Except.map] at h
      | ok r =>
        simp only [hts, Except.map, Except.ok.injEq] at h
        subst h
        simp [length_maskOfTags hts]

theorem length_maskOfSequence {items : List Setting} {n : Int} {m : List Bool}
    (h : maskOfSequence items n = .ok m) : m.length = n.toNat := by
  unfold maskOfSequence at h
  split at h
  · have := length_maskOfTags h
    omega
  · cases h

variable {machine : Machine}

theorem length_uniformMask {b : Bool} {n : Int} {m : List Bool}
    (h : uniformMask machine b n = .ok m) : m.length = n.toNat := by
  unfold uniformMask at h
  split at h
  · cases h
  · split at h
    · cases h
    · cases h
      simp

theorem length_maskOfText {s : String} {n : Int} {m : List Bool}
    (h : maskOfText machine s n = .ok m) : m.length = n.toNat := by
  unfold maskOfText at h
  split at h
  · exact length_uniformMask h
  · split at h
    · exact length_uniformMask h
    · cases h

theorem length_maskOfIntegers {step : Int} : ∀ {count : Nat} {start : Int} {m : List Bool},
    maskOfIntegers step start count = .ok m → m.length = count
  | 0, _, _, h => by
    cases h
    rfl
  | count + 1, start, m, h => by
    unfold maskOfIntegers at h
    split at h
    · cases h
    · cases hts : maskOfIntegers step (start + step) count with
      | error e => simp [hts, Except.map] at h
      | ok r =>
        simp only [hts, Except.map, Except.ok.injEq] at h
        subst h
        simp [length_maskOfIntegers hts]

theorem length_maskOfRange {r : IntegerRange} {n : Int} {m : List Bool}
    (h : maskOfRange r n = .ok m) : m.length = n.toNat := by
  unfold maskOfRange at h
  split at h
  · cases h
  · split at h
    · have := length_maskOfIntegers h
      omega
    · cases h

theorem length_maskOfElements {policy : Setting} {n : Int} {m : List Bool}
    (h : maskOfElements policy n = .ok m) : m.length = n.toNat := by
  unfold maskOfElements at h
  split at h
  · exact length_maskOfRange h
  · split at h
    · exact length_maskOfSequence h
    · cases h

/-- A mask has one entry for each component. -/
theorem length_projectionMask {policy : Setting} {n : Int} {m : List Bool}
    (h : projectionMask machine policy n = .ok m) : m.length = n.toNat := by
  unfold projectionMask at h
  split at h
  · exact length_maskOfText h
  · exact length_maskOfElements h
  · exact length_maskOfElements h

/-- The mask of a policy for vectors of length `n`. -/
def maskFor (machine : Machine) (policy : Setting) (n : Nat) :
    Except PolicyError (Vector Bool n) :=
  match h : projectionMask machine policy n with
  | .ok m => .ok ⟨m.toArray, by simpa using length_projectionMask h⟩
  | .error e => .error e

section Clamping

variable {α : Type} {n : Nat} [Scalar α]

/-- The vector with the marked components clamped at zero. -/
def clamp (mask : Vector Bool n) (y : Vector α n) : Vector α n :=
  Vector.zipWith (fun b x => if b then Scalar.max x 0 else x) mask y

theorem get_clamp (mask : Vector Bool n) (y : Vector α n) (i : Fin n) :
    (clamp mask y).get i = if mask.get i then Scalar.max (y.get i) 0 else y.get i :=
  Vector.getElem_zipWith i.isLt

/-- Why a mask cannot be applied to a vector. -/
inductive ProjectionError
  /-- The lengths cannot be combined. -/
  | incompatible
  /-- The result would have another length than the vector. -/
  | resized

/-- The vector with the components clamped that a mask of any length marks. -/
def project (y : Vector α n) (mask : List Bool) : Except ProjectionError (Vector α n) :=
  if !mask.any id then .ok y
  else if h : mask.length = n then .ok (clamp ⟨mask.toArray, by simpa using h⟩ y)
  else if mask.length = 1 then .ok (clamp (Vector.replicate n true) y)
  else if n = 1 then .error .resized
  else .error .incompatible

end Clamping

end Stationary
