import Stationary.Proofs.Conversions
import Stationary.Proofs.Masks

/-!
# Which policies have a mask

Tags are numbers. A truth value counts as zero or one, an integer and a binary64 number count with
their values, and an array of one number counts as this number (`Setting.IsNumber`). A policy has
a mask if it is one of two texts, or a sequence of zeros and ones with an entry for each component,
and the mask marks the ones (`Setting.HasMask`).

Every other policy is refused for one reason (`Setting.Refused`). What is no sequence is a matter
of its kind; a sequence is compared in its length before any of its entries is looked at, and of
the entries the first one that is no tag is reported. An array of several numbers, or of none, is
refused as a tag because its truth value is ambiguous (`Setting.RefusedTag`).
-/

namespace Stationary

open RoundedArithmetic
open Float.Model.UnpackedFloat

/-! ## Numbers -/

/-- Binary64 numbers are equal if they have one value. -/
theorem beq_iff_value {x y : Float} :
    (x == y) = true ↔ ∃ a, value x = some a ∧ value y = some a := by
  have hx := (RoundedFormat.inFormat_unpack x).canonical
  have hy := (RoundedFormat.inFormat_unpack y).canonical
  exact beq_iff_of_canonical hx hy

theorem beq_iff_value_eq {x y : Float} {a : EReal} (hy : value y = some a) :
    (x == y) = true ↔ value x = some a := by
  rw [beq_iff_value]
  constructor
  · rintro ⟨b, hx, hb⟩
    rw [hx, ← hb, hy]
  · exact fun hx => ⟨a, hx, hy⟩

theorem value_one_float : value (1 : Float) = some 1 := by
  have h : value (1 : Float) = some (roundValue Float ((1 : ℕ) : ℝ)) := value_ofNat_binary64 1
  rw [h, Nat.cast_one, EReal.coe_one, roundValue_of_value value_one_binary64]

namespace Setting

/-- The number that a setting is, if it is one. A truth value counts as zero or one, and an
object of another kind may equal one of them too. -/
noncomputable def value? : Setting → Option EReal
  | truth b => some (if b then 1 else 0)
  | int i => some (i : ℝ)
  | float x => value x
  | object _ _ number => number.map fun b => if b then 1 else 0
  | _ => none

/-- An array of one value stands for it, and an array of several or none for nothing. -/
def sole? : Setting → Option Setting
  | array _ _ contents =>
    match contents.leaves with
    | [x] => some x
    | _ => none
  | other => some other

/-- The setting is the number `a`, or an array of it alone. -/
def IsNumber (a : EReal) (t : Setting) : Prop :=
  ∃ x, t.sole? = some x ∧ x.value? = some a

/-- A tag is zero or one. -/
def IsTag (t : Setting) : Prop :=
  t.IsNumber 0 ∨ t.IsNumber 1

variable {t x : Setting} {b : Bool} {e : PolicyError}

/-- A number that is compared with zero and then with one. -/
theorem compared_eq_some_iff {isZero isOne : Prop} [Decidable isZero] [Decidable isOne]
    {a : Option EReal} (hzero : isZero ↔ a = some 0) (hone : isOne ↔ a = some 1) :
    (if isZero then some false else if isOne then some true else none) = some b ↔
      a = some (if b then 1 else 0) := by
  simp only [hzero, hone]
  split
  · rename_i ha
    cases b <;> simp [ha]
  · rename_i ha
    split
    · rename_i ha'
      cases b <;> simp [ha']
    · rename_i ha'
      cases b <;> simp [ha, ha']

theorem tag?_eq_some_iff : x.tag? = some b ↔ x.value? = some (if b then 1 else 0) := by
  cases x with
  | truth c => cases b <;> cases c <;> simp [tag?, value?]
  | object _ _ number => cases number with
    | none => simp [tag?, value?]
    | some c => cases b <;> cases c <;> simp [tag?, value?]
  | int i => exact compared_eq_some_iff (by simp [value?]) (by simp [value?])
  | float x =>
    exact compared_eq_some_iff (beq_iff_value_eq value_zero) (beq_iff_value_eq value_one_float)
  | _ => simp [tag?, value?]

theorem tag?_eq_none_iff : x.tag? = none ↔ x.value? ≠ some 0 ∧ x.value? ≠ some 1 := by
  have hfalse := tag?_eq_some_iff (x := x) (b := false)
  have htrue := tag?_eq_some_iff (x := x) (b := true)
  rw [if_neg Bool.false_ne_true] at hfalse
  rw [if_pos rfl] at htrue
  rw [Ne, Ne, ← hfalse, ← htrue]
  cases h : x.tag? with
  | none => simp
  | some c => cases c <;> simp

/-! ## Tags -/

/-- An array of one value is read by it. -/
theorem readTag_of_leaves {home : ArrayHome} {entries : EntryKind} {contents : Setting}
    (h : contents.leaves = [x]) : readTag (.array home entries contents) =
      x.tag?.elim (.error (.invalidTag (.array home entries contents))) .ok := by
  simp only [readTag, h]
  cases x.tag? <;> rfl

theorem sole?_array {home : ArrayHome} {entries : EntryKind} {contents : Setting}
    (h : (array home entries contents).sole? = some x) : contents.leaves = [x] := by
  unfold sole? at h
  cases hleaves : contents.leaves with
  | nil => simp [hleaves] at h
  | cons y ys => cases ys <;> simp_all

/-- A setting with one value is read by it. -/
theorem readTag_of_sole? (h : t.sole? = some x) :
    readTag t = x.tag?.elim (.error (.invalidTag t)) .ok := by
  cases t with
  | array home entries contents => exact readTag_of_leaves (sole?_array h)
  | _ =>
    cases h
    simp only [readTag]
    split <;> rename_i htag <;> rw [htag] <;> rfl

theorem readTag_of_length {home : ArrayHome} {entries : EntryKind} {contents : Setting}
    (h : contents.leaves.length ≠ 1) : readTag (.array home entries contents) =
      .error (.ambiguousTag home contents.leaves.length) := by
  simp only [readTag]
  split
  · rename_i x hx
    exact absurd (congrArg List.length hx) h
  · rfl

/-- Only an array has no single value. -/
theorem readTag_of_sole?_none (h : t.sole? = none) : ∃ home entries contents,
    t = .array home entries contents ∧ contents.leaves.length ≠ 1 ∧
      readTag t = .error (.ambiguousTag home contents.leaves.length) := by
  cases t with
  | array home entries contents =>
    simp only [sole?] at h
    split at h
    · cases h
    · rename_i hleaves
      have hlength : contents.leaves.length ≠ 1 := by
        intro hone
        obtain ⟨x, hx⟩ := List.length_eq_one_iff.1 hone
        exact hleaves x hx
      exact ⟨home, entries, contents, rfl, hlength, readTag_of_length hlength⟩
  | _ => cases h

/-- A tag has the entry that says whether it is one. -/
theorem readTag_eq_ok_iff : readTag t = .ok b ↔ t.IsNumber (if b then 1 else 0) := by
  unfold IsNumber
  cases hsole : t.sole? with
  | none =>
    obtain ⟨home, entries, contents, -, -, hread⟩ := readTag_of_sole?_none hsole
    simp [hread]
  | some x =>
    simp only [Option.some.injEq, exists_eq_left', ← tag?_eq_some_iff]
    rw [readTag_of_sole? hsole]
    cases x.tag? <;> simp

theorem isTag_iff : t.IsTag ↔ ∃ b, readTag t = .ok b := by
  simp only [IsTag, readTag_eq_ok_iff, Bool.exists_bool, if_pos, Bool.false_eq_true, if_false]

/-- Why a setting is no tag. -/
inductive RefusedTag (t : Setting) : PolicyError → Prop
  /-- It is, or stands for, something else than zero and one. -/
  | invalid {x : Setting} (sole : t.sole? = some x) (notZero : x.value? ≠ some 0)
      (notOne : x.value? ≠ some 1) : RefusedTag t (.invalidTag t)
  /-- It is an array of no value, or of several. -/
  | ambiguous {home : ArrayHome} {entries : EntryKind} {contents : Setting}
      (isArray : t = .array home entries contents) (notOne : contents.leaves.length ≠ 1) :
      RefusedTag t (.ambiguousTag home contents.leaves.length)

theorem readTag_eq_error_iff : readTag t = .error e ↔ RefusedTag t e := by
  constructor
  · intro h
    cases hsole : t.sole? with
    | none =>
      obtain ⟨home, entries, contents, harray, hlength, hread⟩ := readTag_of_sole?_none hsole
      obtain rfl := Except.error.inj (hread.symm.trans h)
      exact .ambiguous harray hlength
    | some x =>
      rw [readTag_of_sole? hsole] at h
      cases htag : x.tag? with
      | some b =>
        rw [htag] at h
        cases h
      | none =>
        rw [htag] at h
        cases h
        obtain ⟨hzero, hone⟩ := tag?_eq_none_iff.1 htag
        exact .invalid hsole hzero hone
  · rintro (⟨hsole, hzero, hone⟩ | ⟨rfl, hlength⟩)
    · rw [readTag_of_sole? hsole, tag?_eq_none_iff.2 ⟨hzero, hone⟩, Option.elim_none]
    · exact readTag_of_length hlength

/-! ## Sequences of tags -/

/-- The mask marks the ones among zeros and ones. -/
structure MarksOnes (items : List Setting) (m : List Bool) : Prop where
  isTag : ∀ t ∈ items, t.IsTag
  length_eq : m.length = items.length
  marked_iff : ∀ i : ℕ, m[i]? = some true ↔ ∃ t, items[i]? = some t ∧ IsNumber 1 t

theorem maskOfTags_eq_ok_iff_marksOnes {items : List Setting} {m : List Bool} :
    maskOfTags items = .ok m ↔ MarksOnes items m := by
  rw [maskOfTags_eq_ok_iff, List.forall₂_iff_get]
  constructor
  · rintro ⟨hlength, hread⟩
    refine ⟨fun t ht => ?_, hlength.symm, fun i => ?_⟩
    · obtain ⟨i, hi, rfl⟩ := List.getElem_of_mem ht
      exact isTag_iff.2 ⟨_, hread i hi (hlength ▸ hi)⟩
    · by_cases hi : i < m.length
      · have hone : m[i] = true ↔ items[i].IsNumber 1 := by
          have hentry : readTag items[i] = .ok m[i] := hread i (hlength ▸ hi) hi
          have hmarked : readTag items[i] = .ok true ↔ items[i].IsNumber 1 := readTag_eq_ok_iff
          rw [← hmarked, hentry, Except.ok.injEq]
        simp only [List.getElem?_eq_getElem hi, List.getElem?_eq_getElem (hlength ▸ hi),
          Option.some.injEq, exists_eq_left', hone]
      · have hi' : ¬i < items.length := hlength ▸ hi
        simp [List.getElem?_eq_none (not_lt.1 hi), List.getElem?_eq_none (not_lt.1 hi')]
  · rintro ⟨htag, hlength, hmarked⟩
    refine ⟨hlength.symm, fun i hi hi' => ?_⟩
    simp only [List.get_eq_getElem]
    obtain ⟨b, hb⟩ := isTag_iff.1 (htag items[i] (List.getElem_mem hi))
    have hone : readTag items[i] = .ok true ↔ items[i].IsNumber 1 := readTag_eq_ok_iff
    have hentry := hmarked i
    simp only [List.getElem?_eq_getElem hi, List.getElem?_eq_getElem hi', Option.some.injEq,
      exists_eq_left', ← hone, hb, Except.ok.injEq] at hentry
    rw [hb, Bool.eq_iff_iff.2 hentry]

/-- Of a list of tags the first one that is none is reported. -/
theorem maskOfTags_eq_error_iff {items : List Setting} :
    maskOfTags items = .error e ↔ ∃ before t after, items = before ++ t :: after ∧
      (∀ s ∈ before, s.IsTag) ∧ RefusedTag t e := by
  induction items with
  | nil => simp [maskOfTags]
  | cons t ts ih =>
    unfold maskOfTags
    cases hread : readTag t with
    | error e' =>
      simp only [Except.error.injEq]
      constructor
      · rintro rfl
        exact ⟨[], t, ts, rfl, by simp, readTag_eq_error_iff.1 hread⟩
      · rintro ⟨before, t', after, hitems, hbefore, hrefused⟩
        cases before with
        | nil =>
          obtain ⟨rfl, -⟩ := List.cons.inj hitems
          exact Except.error.inj (hread.symm.trans (readTag_eq_error_iff.2 hrefused))
        | cons s before =>
          obtain ⟨rfl, -⟩ := List.cons.inj hitems
          obtain ⟨b, hb⟩ := isTag_iff.1 (hbefore t List.mem_cons_self)
          cases hread.symm.trans hb
    | ok b =>
      have hrest : (maskOfTags ts).map (b :: ·) = .error e ↔ maskOfTags ts = .error e := by
        cases maskOfTags ts <;> simp [Except.map]
      simp only [hrest, ih]
      constructor
      · rintro ⟨before, t', after, rfl, hbefore, hrefused⟩
        refine ⟨t :: before, t', after, rfl, ?_, hrefused⟩
        rw [List.forall_mem_cons]
        exact ⟨isTag_iff.2 ⟨b, hread⟩, hbefore⟩
      · rintro ⟨before, t', after, hitems, hbefore, hrefused⟩
        cases before with
        | nil =>
          obtain ⟨rfl, -⟩ := List.cons.inj hitems
          cases hread.symm.trans (readTag_eq_error_iff.2 hrefused)
        | cons s before =>
          obtain ⟨rfl, rfl⟩ := List.cons.inj hitems
          exact ⟨before, t', after, rfl, (List.forall_mem_cons.1 hbefore).2, hrefused⟩

/-! ## Policies -/

/-- The text of the policy that marks every component, or none. -/
def uniformText (marked : Bool) : String :=
  if marked then nonnegative else unclamped

/-- The policy has the mask `m` for `n` components. -/
inductive HasMask (machine : Machine) (policy : Setting) (n : ℕ) : List Bool → Prop
  /-- A text marks every component, or none. -/
  | uniform (marked : Bool) (isText : policy = .text (uniformText marked))
      (countable : fitsInt64 n = true) (fits : n ≤ machine.mostItems) :
      HasMask machine policy n (List.replicate n marked)
  /-- A sequence of zeros and ones marks the ones. -/
  | ofTags {items : List Setting} {m : List Bool} (hasTags : policy.tags? = some items)
      (length_eq : items.length = n) (marks : MarksOnes items m) : HasMask machine policy n m

/-- Why a policy has no mask for `n` components. -/
inductive Refused (machine : Machine) (policy : Setting) (n : ℕ) : PolicyError → Prop
  | unknownText {s : String} (isText : policy = .text s)
      (unknown : ∀ marked, s ≠ uniformText marked) : Refused machine policy n (.unknownPolicy s)
  | countTooLarge {marked : Bool} (isText : policy = .text (uniformText marked))
      (large : fitsInt64 n = false) : Refused machine policy n .countTooLarge
  | outOfMemory {marked : Bool} (isText : policy = .text (uniformText marked))
      (fits : fitsInt64 n = true) (large : machine.mostItems < n) :
      Refused machine policy n .outOfMemory
  /-- It is neither a text nor a sequence, nor an array of either. -/
  | notASequence (notText : ∀ s, policy ≠ .text s) (noTags : policy.tags? = none) :
      Refused machine policy n (.notASequence policy.nested.kind)
  | rangeTooLong (uncountable : policy.isUncountable = true) :
      Refused machine policy n .rangeTooLong
  /-- The length is compared first, whatever the entries are. -/
  | wrongLength {items : List Setting} (hasTags : policy.tags? = some items)
      (countable : policy.isUncountable = false) (length_ne : items.length ≠ n) :
      Refused machine policy n (.wrongLength items.length (.int n))
  /-- The first entry that is no tag is reported. -/
  | firstTag {before after : List Setting} {t : Setting} {e : PolicyError}
      (hasTags : policy.tags? = some (before ++ t :: after))
      (countable : policy.isUncountable = false) (length_eq : (before ++ t :: after).length = n)
      (areTags : ∀ s ∈ before, s.IsTag) (refused : RefusedTag t e) : Refused machine policy n e

variable {machine : Machine} {policy : Setting} {items : List Setting} {m : List Bool} {n : ℕ}

theorem uniformMask_eq_ok_iff {marked : Bool} : uniformMask machine marked n = .ok m ↔
    fitsInt64 n = true ∧ n ≤ machine.mostItems ∧ m = List.replicate n marked := by
  unfold uniformMask
  cases hcount : fitsInt64 n with
  | false => simp
  | true =>
    simp only [Bool.not_true, Bool.false_eq_true, if_false, Int.toNat_natCast, Nat.cast_lt]
    split
    · rename_i hlarge
      simp [Nat.not_le.2 hlarge]
    · rename_i hfits
      simp [not_lt.1 hfits, eq_comm]

theorem maskOfText_uniformText (marked : Bool) (n : ℤ) :
    maskOfText machine (uniformText marked) n = uniformMask machine marked n := by
  cases marked <;> rfl

theorem maskOfText_of_unknown {s : String} (h : ∀ marked, s ≠ uniformText marked) (n : ℤ) :
    maskOfText machine s n = .error (.unknownPolicy s) := by
  have hnonnegative : s ≠ nonnegative := h true
  have hunclamped : s ≠ unclamped := h false
  unfold maskOfText
  rw [if_neg hnonnegative, if_neg hunclamped]

theorem cases_of_text (s : String) :
    (∃ marked, s = uniformText marked) ∨ ∀ marked, s ≠ uniformText marked := by
  by_cases h : ∃ marked, s = uniformText marked
  · exact Or.inl h
  · exact Or.inr (not_exists.1 h)

theorem maskOfSequence_eq_error_iff : maskOfSequence items n = .error e ↔
    items.length ≠ n ∧ e = .wrongLength items.length (.int n) ∨
      items.length = n ∧ maskOfTags items = .error e := by
  unfold maskOfSequence
  simp only [Nat.cast_inj]
  split
  · rename_i hlength
    simp [hlength]
  · rename_i hlength
    simp [hlength, eq_comm]

/-- The masks of a policy. -/
theorem projectionMask_eq_ok_iff_hasMask :
    projectionMask machine policy n = .ok m ↔ HasMask machine policy n m := by
  constructor
  · intro h
    rcases cases_of_policy policy with ⟨s, rfl⟩ | ⟨items, htags⟩ | ⟨htext, htags⟩
    · have hmask : maskOfText machine s n = .ok m := h
      rcases cases_of_text s with ⟨marked, rfl⟩ | hunknown
      · rw [maskOfText_uniformText, uniformMask_eq_ok_iff] at hmask
        obtain ⟨hcount, hfits, rfl⟩ := hmask
        exact .uniform marked rfl hcount hfits
      · rw [maskOfText_of_unknown hunknown] at hmask
        cases hmask
    · obtain ⟨hlength, hmask⟩ := maskOfSequence_eq_ok_iff.1 ((projectionMask_eq_ok_iff htags).1 h)
      exact .ofTags htags (Nat.cast_inj.1 hlength) (maskOfTags_eq_ok_iff_marksOnes.1 hmask)
    · rw [projectionMask_of_notASequence htext htags] at h
      cases h
  · rintro (⟨marked, rfl, hcount, hfits⟩ | ⟨htags, hlength, hmarks⟩)
    · show maskOfText machine (uniformText marked) n = _
      rw [maskOfText_uniformText, uniformMask_eq_ok_iff]
      exact ⟨hcount, hfits, rfl⟩
    · rw [projectionMask_eq_ok_iff htags, maskOfSequence_eq_ok_iff, maskOfTags_eq_ok_iff_marksOnes]
      exact ⟨congrArg Nat.cast hlength, hmarks⟩

/-- A text is refused if it is unknown, or for the number of components. -/
theorem refused_of_text {s : String} (h : maskOfText machine s n = .error e) :
    Refused machine (.text s) n e := by
  rcases cases_of_text s with ⟨marked, rfl⟩ | hunknown
  · rw [maskOfText_uniformText] at h
    unfold uniformMask at h
    split at h
    · rename_i hlarge
      cases h
      exact .countTooLarge rfl (by simpa using hlarge)
    · rename_i hfits
      split at h
      · rename_i hlarge
        cases h
        exact .outOfMemory rfl (by simpa using hfits) (Nat.cast_lt.1 hlarge)
      · cases h
  · rw [maskOfText_of_unknown hunknown] at h
    cases h
    exact .unknownText rfl hunknown

/-- The refusals of a policy. -/
theorem projectionMask_eq_error_iff_refused :
    projectionMask machine policy n = .error e ↔ Refused machine policy n e := by
  constructor
  · intro h
    rcases cases_of_policy policy with ⟨s, rfl⟩ | ⟨items, htags⟩ | ⟨htext, htags⟩
    · exact refused_of_text h
    · cases hcount : policy.isUncountable with
      | true =>
        rw [projectionMask_of_isUncountable hcount] at h
        cases h
        exact .rangeTooLong hcount
      | false =>
        rw [projectionMask_of_tags htags hcount, maskOfSequence_eq_error_iff] at h
        rcases h with ⟨hlength, rfl⟩ | ⟨hlength, htag⟩
        · exact .wrongLength htags hcount hlength
        · obtain ⟨before, t, after, rfl, hbefore, hrefused⟩ := maskOfTags_eq_error_iff.1 htag
          exact .firstTag htags hcount hlength hbefore hrefused
    · rw [projectionMask_of_notASequence htext htags] at h
      cases h
      exact .notASequence htext htags
  · intro h
    cases h with
    | unknownText htext hunknown =>
      subst htext
      exact maskOfText_of_unknown hunknown n
    | @countTooLarge marked htext hlarge =>
      subst htext
      show maskOfText machine (uniformText marked) n = _
      rw [maskOfText_uniformText, uniformMask, hlarge]
      rfl
    | @outOfMemory marked htext hfits hlarge =>
      subst htext
      show maskOfText machine (uniformText marked) n = _
      rw [maskOfText_uniformText, uniformMask, hfits, if_pos (Nat.cast_lt.2 hlarge)]
      rfl
    | notASequence htext htags => exact projectionMask_of_notASequence htext htags n
    | rangeTooLong hcount => exact projectionMask_of_isUncountable hcount n
    | wrongLength htags hcount hlength =>
      rw [projectionMask_of_tags htags hcount, maskOfSequence_eq_error_iff]
      exact Or.inl ⟨hlength, rfl⟩
    | firstTag htags hcount hlength hbefore hrefused =>
      rw [projectionMask_of_tags htags hcount, maskOfSequence_eq_error_iff]
      exact Or.inr ⟨hlength, maskOfTags_eq_error_iff.2 ⟨_, _, _, rfl, hbefore, hrefused⟩⟩

/-- The kind of a refusal is a matter of what the policy is, but for texts and ranges that are too
large. -/
theorem Refused.errorKind_cases (h : Refused machine policy n e) :
    e.errorKind = .typeError ∧ (∀ s, policy ≠ .text s) ∧ policy.tags? = none ∨
      e.errorKind = .valueError ∨
      e.errorKind = .overflowError ∧ policy.isUncountable = true ∨
      (∃ marked, policy = .text (uniformText marked)) ∧
        (e.errorKind = .overflowError ∧ fitsInt64 n = false ∨
          e.errorKind = .memoryError ∧ machine.mostItems < n) := by
  cases h with
  | unknownText => exact Or.inr (Or.inl rfl)
  | @countTooLarge marked htext hlarge =>
    exact Or.inr (Or.inr (Or.inr ⟨⟨marked, htext⟩, Or.inl ⟨rfl, hlarge⟩⟩))
  | @outOfMemory marked htext _ hlarge =>
    exact Or.inr (Or.inr (Or.inr ⟨⟨marked, htext⟩, Or.inr ⟨rfl, hlarge⟩⟩))
  | notASequence htext htags => exact Or.inl ⟨rfl, htext, htags⟩
  | rangeTooLong hcount => exact Or.inr (Or.inr (Or.inl ⟨rfl, hcount⟩))
  | wrongLength => exact Or.inr (Or.inl rfl)
  | firstTag _ _ _ _ hrefused => cases hrefused <;> exact Or.inr (Or.inl rfl)

/-- A policy has a mask for any number of components exactly if it is one of two texts or a
sequence of zeros and ones of this length, and the mask marks the ones. Every other policy is
refused, by its kind first, then by its length, and then for its first entry that is no tag. The
refusal is a matter of types exactly if the policy is neither a text nor a sequence, nor an array of
either, and otherwise one of values, but for ranges that cannot be counted and texts for too many
components. An entry that is refused as invalid is named in the message, unless an integer in it
has too many digits : then the message is about these. -/
theorem projectionMask_of_policy (machine : Machine) (policy : Setting) (n : ℕ) :
    (∀ m, projectionMask machine policy n = .ok m ↔ HasMask machine policy n m) ∧
    (∀ e, projectionMask machine policy n = .error e ↔ Refused machine policy n e) ∧
    ((∃ e, projectionMask machine policy n = .error e ∧ e.errorKind = .typeError) ↔
      (∀ s, policy ≠ .text s) ∧ policy.tags? = none) ∧
    (∀ e, projectionMask machine policy n = .error e →
      e.errorKind = .typeError ∨ e.errorKind = .valueError ∨
      e.errorKind = .overflowError ∧ policy.isUncountable = true ∨
      (∃ marked, policy = .text (uniformText marked)) ∧
        (e.errorKind = .overflowError ∧ fitsInt64 n = false ∨
          e.errorKind = .memoryError ∧ machine.mostItems < n)) ∧
    ∀ t, projectionMask machine policy n = .error (.invalidTag t) →
      (PolicyError.invalidTag t).message? = some
        (if t.isShowable then "Invalid projection tag " ++ t.shown else tooManyDigitsText) := by
  refine ⟨fun m => projectionMask_eq_ok_iff_hasMask, fun e => projectionMask_eq_error_iff_refused,
    ⟨?_, ?_⟩, ?_, fun t _ => rfl⟩
  · rintro ⟨e, he, hkind⟩
    rcases (projectionMask_eq_error_iff_refused.1 he).errorKind_cases with
      ⟨-, hpolicy⟩ | h | ⟨h, -⟩ | ⟨-, ⟨h, -⟩ | ⟨h, -⟩⟩
    · exact hpolicy
    all_goals
      rw [h] at hkind
      cases hkind
  · rintro ⟨htext, htags⟩
    exact ⟨_, projectionMask_of_notASequence htext htags n, rfl⟩
  · intro e he
    exact (projectionMask_eq_error_iff_refused.1 he).errorKind_cases.imp_left And.left

/-- An integer with more than 4300 digits has no text. -/
theorem isWritable_of_le {k : ℕ} (h : 4300 ≤ k) : isWritable (10 ^ k) = false := by
  have hdigits : ∀ j, j ≤ k → Decimal.pow10 j ≤ 10 ^ k := fun j hj =>
    Nat.pow_le_pow_right (by decide) hj
  rw [isWritable, Int.natAbs_pow]
  exact decide_eq_false (not_lt.2 (hdigits _ h))

/-- An integer that is neither zero nor one is no tag. -/
theorem projectionMask_singleton {i : ℤ} (hzero : i ≠ 0) (hone : i ≠ 1) :
    projectionMask machine (.list [.int i]) 1 = .error (.invalidTag (.int i)) := by
  have htag : (Setting.int i).tag? = none := by rw [tag?, if_neg hzero, if_neg hone]
  show maskOfTags [.int i] = _
  rw [maskOfTags, readTag_of_sole? (x := .int i) rfl, htag]
  rfl

theorem message?_of_isWritable {i : ℤ} (h : isWritable i = false) :
    (PolicyError.invalidTag (.int i)).message? = some tooManyDigitsText := by
  have hlong : (Setting.int i).isShowable = false := by rwa [isShowable]
  refine congrArg some ?_
  rw [textWith, hlong, if_neg Bool.false_ne_true]

/-- Policies that are treated by rules of their own : a range that cannot be counted, in an array or
not, is not refused for its length, an array without axes that holds an empty text has a mask, an
array of two numbers among the tags is not named as the first one that is none, nor is an integer
of 5001 digits, and there is no mask for `2 ^ 63` components. -/
theorem projectionMask_of_special_policies :
    (∀ policy ∈ [between 0 9223372036854775808,
        .array .host .anything (between 0 9223372036854775808)],
      projectionMask {} policy 1 = .error .rangeTooLong) ∧
    projectionMask {} (.array .host (.texts 1) (.text "")) 0 = .ok [] ∧
    projectionMask {} (.list [.array .host .int64 (.list [.int 0, .int 1])]) 1 =
      .error (.ambiguousTag .host 2) ∧
    (∃ e, projectionMask {} (.list [.int (10 ^ 5000)]) 1 = .error e ∧
      e.message? = some tooManyDigitsText) ∧
    projectionMask {} (.text unclamped) 9223372036854775808 = .error .countTooLarge := by
  refine ⟨?_, rfl, rfl, ⟨.invalidTag (.int (10 ^ 5000)), ?_, ?_⟩, rfl⟩
  · intro policy hpolicy
    rcases List.mem_pair.1 hpolicy with rfl | rfl <;> rfl
  · have hlarge : (10 : ℤ) ^ 0 < 10 ^ 5000 := pow_lt_pow_right₀ (by decide) (by decide)
    exact projectionMask_singleton (pow_ne_zero 5000 (by decide)) hlarge.ne'
  · exact message?_of_isWritable (isWritable_of_le (by decide))

end Setting

end Stationary
