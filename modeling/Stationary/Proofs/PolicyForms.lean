import Stationary.Proofs.Masks
import Stationary.Proofs.Misfits

/-!
# Forms of a policy

A policy is given as a value of any kind, and a solver stores a text or a tuple. What it stores
has the masks and the errors of what was given, for every number of components
(`Solver.projectionMask_of_storedPolicy`), with one exception : an array of one value may hold
something that is no sequence but can be gone through, such as a set or a dictionary, and it is
stored as the tuple of what comes up (`Setting.holdsIterable`). A policy with a mask is always
stored.

A policy that is refused when the solver is made has no mask either, and the two errors are of the
same kind (`Solver.errorKind_of_storedPolicy`). The exception is a range whose integers can be
counted, but are too many for a tuple, or an array that holds one (`Setting.isOversized`). As a
policy it only has the wrong length or an invalid tag.

So a mask is all that a policy stands for : the run with the policy is the run with the mask
(`Solver.policy_forms_agree`).
-/

set_option linter.unusedSectionVars false

namespace Stationary

variable {machine : Machine}

namespace Setting

/-- An array of one value that is no sequence, but can be gone through. -/
def holdsIterable : Setting → Bool
  | .array _ _ contents => contents.arrayItems?.isNone && contents.iterated?.isSome
  | _ => false

/-- A range whose integers can be counted, but are too many for the memory, or an array that holds
one. -/
def isOversized (machine : Machine) (policy : Setting) : Bool :=
  match policy.nested with
  | .range r => !r.isTooLong && machine.mostItems < r.count
  | _ => false

theorem isOversized_of_nested {policy : Setting} {r : IntegerRange} (h : policy.nested = .range r) :
    policy.isOversized machine = (!r.isTooLong && machine.mostItems < r.count) := by
  unfold isOversized
  rw [h]

/-- What a sequence gives that is gone through are its elements. -/
theorem iterated?_of_arrayItems? {contents : Setting} {items : List Setting}
    (h : contents.arrayItems? = some items) : contents.iterated? = some items := by
  cases contents with
  | set _ => cases h
  | dict _ => cases h
  | iterable _ _ _ => cases h
  | array _ _ _ => cases h
  | _ => exact h

/-- An array that holds what is no sequence has no mask. -/
theorem holdsIterable_of_ok {policy : Setting} {n : Int} {m : List Bool}
    (h : projectionMask machine policy n = .ok m) : policy.holdsIterable = false := by
  unfold holdsIterable
  split
  · rename_i home entries contents
    have hmask : maskOfElements contents n = .ok m := h
    unfold maskOfElements at hmask
    split at hmask
    · rfl
    · split at hmask
      · rename_i items hitems
        rw [hitems]
        rfl
      · cases hmask
  · rfl

/-- A range that is too large for a tuple has no mask. -/
theorem isOversized_of_ok {policy : Setting} {n : Int} {m : List Bool}
    (h : projectionMask machine policy n = .ok m) : policy.isOversized machine = false := by
  unfold isOversized
  split
  · rename_i r hr
    have htext : ∀ s, policy ≠ .text s := by
      rintro s rfl
      cases hr
    rw [projectionMask_eq_maskOfElements htext, hr] at h
    have hcount := count_le_of_maskOfRange h
    have hroom := machine.two_le_mostItems
    simp only [Bool.and_eq_false_iff, decide_eq_false_iff_not]
    omega
  · rfl

end Setting

/-- The truth values of a mask are tags that stand for it. -/
theorem maskOfTags_truths (m : List Bool) : maskOfTags (m.map .truth) = .ok m := by
  rw [maskOfTags_eq_ok_iff, List.forall₂_map_left_iff, List.forall₂_same]
  exact fun b _ => rfl

theorem projectionMask_truths {n : Nat} {m : List Bool} (h : m.length = n) :
    projectionMask machine (.tuple (m.map .truth)) n = .ok m := by
  subst h
  refine maskOfSequence_eq_ok_iff.2 ⟨?_, maskOfTags_truths m⟩
  rw [List.length_map]

namespace Solver

open Journaled

/-! ## What is stored -/

/-- A range is stored as the tuple of its integers, unless these cannot be counted or held. -/
theorem storedElements_range {cause : SettingsError} {elements? : Setting → Option (List Setting)}
    (r : IntegerRange) : storedElements machine cause elements? (.range r) =
      if r.isTooLong then .error .projectionTooLong
      else if machine.mostItems < r.count then .error .outOfMemory
      else .ok (.tuple (Setting.integers r)) :=
  rfl

/-- Anything else that has elements is stored as their tuple. -/
theorem storedElements_of_some {cause : SettingsError}
    {elements? : Setting → Option (List Setting)} {given : Setting} {items : List Setting}
    (hrange : ∀ r, given ≠ .range r) (h : elements? given = some items) :
    storedElements machine cause elements? given = .ok (.tuple items) := by
  unfold storedElements
  split
  · rename_i r
    exact absurd rfl (hrange r)
  · rw [h]

theorem storedElements_of_none {cause : SettingsError}
    {elements? : Setting → Option (List Setting)} {given : Setting}
    (hrange : ∀ r, given ≠ .range r) (h : elements? given = none) :
    storedElements machine cause elements? given = .error cause := by
  unfold storedElements
  split
  · rename_i r
    exact absurd rfl (hrange r)
  · rw [h]

/-- A policy is stored as the elements of what it is or holds, an array by going through it. -/
theorem storedPolicy_of_not_text (machine : Machine) {policy : Setting}
    (htext : ∀ s, policy ≠ .text s) :
    ∃ (cause : SettingsError) (elements? : Setting → Option (List Setting)),
      storedPolicy machine policy = storedElements machine cause elements? policy.nested ∧
      cause.errorKind = .typeError ∧
      (∀ items, policy.nested.arrayItems? = some items →
        elements? policy.nested = some items) ∧
      (policy.nested.arrayItems? = none → policy.holdsIterable = false →
        elements? policy.nested = none) := by
  obtain ⟨cause, hcause⟩ : ∃ cause, cause = SettingsError.projectionNotASequence policy.kind :=
    ⟨_, rfl⟩
  cases policy with
  | text s => exact absurd rfl (htext s)
  | array home entries contents =>
    refine ⟨.projectionWithoutElements contents.kind, Setting.iterated?, rfl, rfl,
      fun items => Setting.iterated?_of_arrayItems?, fun hitems hpolicy => ?_⟩
    have hitems : contents.arrayItems? = none := hitems
    have hpolicy : (contents.arrayItems?.isNone && contents.iterated?.isSome) = false := hpolicy
    rw [hitems] at hpolicy
    exact Option.isNone_iff_eq_none.1 (Option.isSome_eq_false_iff.1 hpolicy)
  | _ =>
    exact ⟨cause, Setting.elements?, hcause ▸ rfl, hcause ▸ rfl, fun items h => h, fun h _ => h⟩

/-- A policy with tags is stored as their tuple, unless these cannot be counted or held. -/
theorem storedPolicy_of_tags {policy : Setting} {items : List Setting}
    (h : policy.tags? = some items) : storedPolicy machine policy =
      if policy.isUncountable then .error .projectionTooLong
      else if policy.isOversized machine then .error .outOfMemory
      else .ok (.tuple items) := by
  have htext := Setting.ne_text_of_tags? h
  have hitems : policy.nested.arrayItems? = some items :=
    (Setting.tags?_eq_arrayItems? htext).symm.trans h
  obtain ⟨cause, elements?, hstored, -, hsome, -⟩ :=
    storedPolicy_of_not_text machine htext
  rw [hstored]
  by_cases hrange : ∃ r, policy.nested = .range r
  · obtain ⟨r, hr⟩ := hrange
    rw [Setting.isUncountable_of_nested hr, Setting.isOversized_of_nested hr]
    rw [hr] at hitems ⊢
    cases hitems
    rw [storedElements_range]
    cases r.isTooLong <;> simp
  · have hrange : ∀ r, policy.nested ≠ .range r := fun r hr => hrange ⟨r, hr⟩
    rw [storedElements_of_some hrange (hsome items hitems)]
    unfold Setting.isUncountable Setting.isOversized
    cases hnested : policy.nested with
    | range r => exact absurd hnested (hrange r)
    | _ => rfl

/-- What is neither a text nor has tags is not stored, unless it can be gone through. -/
theorem storedPolicy_of_notASequence (machine : Machine) {policy : Setting}
    (htext : ∀ s, policy ≠ .text s) (htags : policy.tags? = none)
    (hpolicy : policy.holdsIterable = false) :
    ∃ cause, storedPolicy machine policy = .error cause ∧ cause.errorKind = .typeError := by
  rw [Setting.tags?_eq_arrayItems? htext] at htags
  have hrange : ∀ r, policy.nested ≠ .range r := by
    intro r hr
    rw [hr] at htags
    cases htags
  obtain ⟨cause, elements?, hstored, hkind, -, hnone⟩ :=
    storedPolicy_of_not_text machine htext
  exact ⟨cause, hstored.trans (storedElements_of_none hrange (hnone htags hpolicy)), hkind⟩

/-- What an array holds that can be gone through is stored as the tuple of what comes up. -/
theorem exists_stored_of_holdsIterable (machine : Machine) {policy : Setting}
    (h : policy.holdsIterable = true) :
    ∃ items, storedPolicy machine policy = .ok (.tuple items) := by
  unfold Setting.holdsIterable at h
  split at h
  · rename_i home entries contents
    obtain ⟨hno, hsome⟩ := Bool.and_eq_true_iff.1 h
    obtain ⟨items, hitems⟩ := Option.isSome_iff_exists.1 hsome
    refine ⟨items, ?_⟩
    show storedElements machine _ _ contents = _
    unfold storedElements
    split
    · cases hno
    · rw [hitems]
  · cases h

/-- What is stored has the masks and the errors of what was given. -/
theorem projectionMask_of_storedPolicy {policy stored : Setting}
    (h : storedPolicy machine policy = .ok stored) (hpolicy : policy.holdsIterable = false)
    (n : Int) : projectionMask machine stored n = projectionMask machine policy n := by
  rcases Setting.cases_of_policy policy with ⟨s, rfl⟩ | ⟨items, htags⟩ | ⟨htext, htags⟩
  · cases h
    rfl
  · rw [storedPolicy_of_tags htags] at h
    split at h
    · cases h
    · rename_i hcount
      split at h
      · cases h
      · cases h
        rw [Setting.projectionMask_of_tags htags (Bool.eq_false_iff.2 hcount)]
        rfl
  · obtain ⟨cause, hcause, -⟩ :=
      storedPolicy_of_notASequence machine htext htags hpolicy
    rw [hcause] at h
    cases h

theorem storedPolicy_of_isOversized {policy : Setting} (h : policy.isOversized machine = true) :
    storedPolicy machine policy = .error .outOfMemory := by
  have hsize := h
  unfold Setting.isOversized at h
  split at h
  · rename_i r hr
    have htext : ∀ s, policy ≠ .text s := by
      rintro s rfl
      cases hr
    have htags : policy.tags? = some (Setting.integers r) := by
      rw [Setting.tags?_eq_arrayItems? htext, hr]
      rfl
    rw [storedPolicy_of_tags htags, Setting.isUncountable_of_nested hr, hsize]
    cases hlong : r.isTooLong with
    | true =>
      rw [hlong] at h
      cases h
    | false => rfl
  · cases h

/-- A policy that is not stored has no mask, for an error of the same kind, unless it is a range
that is too large for a tuple. -/
theorem errorKind_of_storedPolicy {policy : Setting} {cause : SettingsError}
    (h : storedPolicy machine policy = .error cause) (n : Int) :
    ∃ e, projectionMask machine policy n = .error e ∧
      (policy.isOversized machine = false → cause.errorKind = e.errorKind) := by
  rcases Setting.cases_of_policy policy with ⟨s, rfl⟩ | ⟨items, htags⟩ | ⟨htext, htags⟩
  · cases h
  · rw [storedPolicy_of_tags htags] at h
    split at h
    · rename_i hcount
      cases h
      exact ⟨.rangeTooLong, Setting.projectionMask_of_isUncountable hcount n, fun _ => rfl⟩
    · split at h
      · rename_i hsize
        cases hm : projectionMask machine policy n with
        | ok m =>
          rw [Setting.isOversized_of_ok hm] at hsize
          cases hsize
        | error e =>
          refine ⟨e, rfl, fun hfits => ?_⟩
          rw [hfits] at hsize
          cases hsize
      · cases h
  · refine ⟨_, Setting.projectionMask_of_notASequence htext htags n, fun _ => ?_⟩
    cases hpolicy : policy.holdsIterable with
    | true =>
      obtain ⟨items, hstored⟩ := exists_stored_of_holdsIterable machine hpolicy
      rw [hstored] at h
      cases h
    | false =>
      obtain ⟨cause', hcause, hkind⟩ :=
        storedPolicy_of_notASequence machine htext htags hpolicy
      obtain rfl := Except.error.inj (h.symm.trans hcause)
      exact hkind

/-! ## Solvers with a policy -/

/-- Settings that are accepted with one policy are accepted with another one if it can be
stored, and refused for this reason alone otherwise. -/
theorem ofSettings_withPolicy {settings : Settings} {given : Setting} {solver : Solver}
    (h : ofSettings { settings with projection := given } = .ok solver) (policy : Setting) :
    ofSettings { settings with projection := policy } =
      (storedPolicy settings.machine policy).map fun stored =>
        { solver with projection := stored } := by
  obtain ⟨hjacobian, hbudget, hatol, hrtol, hmethod, -, hpivot, hmachine⟩ :=
    ofSettings_eq_ok_iff.1 h
  dsimp only at hjacobian hbudget hatol hrtol hmethod hpivot hmachine
  unfold ofSettings
  rw [hjacobian, hbudget, hatol, hrtol, hmethod]
  rw [hpivot, hmachine]
  cases storedPolicy solver.machine policy <;> rfl

/-- Solvers that differ in their policies, which have the same masks and errors, make the same
runs. -/
theorem run_congr {α : Type} [Elementary α] [Decomposes α] {solver : Solver} {policy : Setting}
    {n : Nat} (h : projectionMask solver.machine solver.projection n =
      projectionMask solver.machine policy n) (system : System α n) (y : Vector α n) :
    (solver.newton α).run system y =
      (({ solver with projection := policy } : Solver).newton α).run system y := by
  have hmask : maskFor (solver.newton α).machine (solver.newton α).projection n =
      maskFor (solver.newton α).machine policy n := maskFor_congr h
  exact (Newton.run_withPolicy hmask y).symm

/-- Where a policy has no mask, the start fails for this reason if for no other, and so does the
run. -/
theorem value_init_of_policy {α : Type} [Elementary α] [Decomposes α] {solver : Solver}
    {n : Nat} {e : PolicyError} (hn : 1 ≤ n)
    (h : projectionMask solver.machine solver.projection n = .error e)
    {system : System α n} {y f : Vector α n} (hf : system.residualVector y = .ok f)
    (hshape : system.checkJacobianShape.value = .ok ()) :
    ((solver.newton α).init system y).value = .error (.policy e) ∧
      ((solver.newton α).run system y).value = .error (.policy e) := by
  have hinit : ((solver.newton α).init system y).value = .error (.policy e) :=
    (Newton.value_init_eq_error_iff (by omega)).2
      (Or.inr ⟨f, hf, Or.inr ⟨hshape, e, maskFor_eq_error_iff.2 h, rfl⟩⟩)
  refine ⟨hinit, ?_⟩
  unfold Newton.run
  rw [value_bind, hinit]
  rfl

/-- A policy with a mask is accepted, and stored as a text or a tuple with this mask. -/
theorem exists_stored_of_mask {policy : Setting} {n : Int} {m : List Bool}
    (hm : projectionMask machine policy n = .ok m) :
    ∃ stored, storedPolicy machine policy = .ok stored ∧
      ((∃ s, stored = .text s) ∨ ∃ items, stored = .tuple items) ∧
      projectionMask machine stored n = .ok m := by
  cases hstored : storedPolicy machine policy with
  | error cause =>
    obtain ⟨e, he, -⟩ := errorKind_of_storedPolicy hstored n
    rw [hm] at he
    cases he
  | ok stored =>
    exact ⟨stored, rfl, storedPolicy_eq_ok hstored,
      (projectionMask_of_storedPolicy hstored (Setting.holdsIterable_of_ok hm) n).trans hm⟩

/-- A policy without a mask is refused for the same kind of reason, or stored without a mask. -/
theorem refused_or_stored_of_error {policy : Setting} {n : Int} {e : PolicyError}
    (he : projectionMask machine policy n = .error e)
    (hsize : policy.isOversized machine = false) (hpolicy : policy.holdsIterable = false) :
    (∃ cause, storedPolicy machine policy = .error cause ∧ cause.errorKind = e.errorKind) ∨
      ∃ stored, storedPolicy machine policy = .ok stored ∧
        projectionMask machine stored n = .error e := by
  cases hstored : storedPolicy machine policy with
  | error cause =>
    obtain ⟨e', he', hkind⟩ := errorKind_of_storedPolicy hstored n
    obtain rfl : e = e' := Except.error.inj (he.symm.trans he')
    exact Or.inl ⟨cause, rfl, hkind hsize⟩
  | ok stored =>
    exact Or.inr ⟨stored, rfl, (projectionMask_of_storedPolicy hstored hpolicy n).trans he⟩

/-- A policy with a mask is accepted in any form, stored as a text or a tuple with this mask, and
makes the runs that the mask makes. A policy without a mask is refused when the solver is
made, with an error of the kind of its own, or it is stored and every start that is
otherwise admissible fails with the error of the policy. Left out are arrays of one value
that is no sequence but can be gone through. Ranges that are too large for the memory, in
an array or not, are refused because they cannot be held. -/
theorem policy_forms_agree {settings : Settings} {given : Setting} {solver₀ : Solver}
    (hs : ofSettings { settings with projection := given } = .ok solver₀) (policy : Setting)
    {n : Nat} (hn : 1 ≤ n) :
    (∀ m, projectionMask settings.machine policy n = .ok m →
      ∃ solver solver', ofSettings { settings with projection := policy } = .ok solver ∧
        ofSettings { settings with projection := .tuple (m.map .truth) } = .ok solver' ∧
        ((∃ s, solver.projection = .text s) ∨ ∃ items, solver.projection = .tuple items) ∧
        projectionMask settings.machine solver.projection n = .ok m ∧
        ∀ (α : Type) [Elementary α] [Decomposes α] (system : System α n) (y : Vector α n),
          (solver.newton α).run system y = (solver'.newton α).run system y) ∧
    (∀ e, projectionMask settings.machine policy n = .error e →
      policy.isOversized settings.machine = false → policy.holdsIterable = false →
      (∃ cause, ofSettings { settings with projection := policy } = .error cause ∧
        cause.errorKind = e.errorKind) ∨
      ∃ solver, ofSettings { settings with projection := policy } = .ok solver ∧
        ∀ (α : Type) [Elementary α] [Decomposes α] (system : System α n) (y f : Vector α n),
          system.residualVector y = .ok f → system.checkJacobianShape.value = .ok () →
          ((solver.newton α).init system y).value = .error (.policy e) ∧
            ((solver.newton α).run system y).value = .error (.policy e)) ∧
    (policy.isOversized settings.machine = true →
      ofSettings { settings with projection := policy } = .error .outOfMemory) := by
  have hmachine : settings.machine = solver₀.machine := by
    obtain ⟨-, -, -, -, -, -, -, hmachine⟩ := ofSettings_eq_ok_iff.1 hs
    exact hmachine
  refine ⟨fun m hm => ?_, fun e he hsize hpolicy => ?_, fun hsize => ?_⟩
  · have hlength : m.length = n := by
      have h := length_projectionMask hm
      omega
    obtain ⟨stored, hstored, hform, hmask⟩ := exists_stored_of_mask hm
    refine ⟨{ solver₀ with projection := stored },
      { solver₀ with projection := .tuple (m.map .truth) }, ?_, ?_, hform, hmask,
      fun α _ _ system y => ?_⟩
    · rw [ofSettings_withPolicy hs, hstored]
      rfl
    · rw [ofSettings_withPolicy hs]
      rfl
    · rw [hmachine] at hmask
      have hsame : projectionMask ({ solver₀ with projection := stored } : Solver).machine
          ({ solver₀ with projection := stored } : Solver).projection n =
            projectionMask solver₀.machine (.tuple (m.map .truth)) n :=
        hmask.trans (projectionMask_truths hlength).symm
      exact run_congr hsame system y
  · rcases refused_or_stored_of_error he hsize hpolicy with
      ⟨cause, hstored, hkind⟩ | ⟨stored, hstored, hmask⟩
    · refine Or.inl ⟨cause, ?_, hkind⟩
      rw [ofSettings_withPolicy hs, hstored]
      rfl
    · rw [hmachine] at hmask
      refine Or.inr ⟨{ solver₀ with projection := stored }, ?_, fun α _ _ system y f hf hshape =>
        value_init_of_policy hn hmask hf hshape⟩
      rw [ofSettings_withPolicy hs, hstored]
      rfl
  · rw [ofSettings_withPolicy hs, storedPolicy_of_isOversized hsize]
    rfl

/-- The residual of the unit equation at three. -/
theorem residualVector_unitEquation :
    unitEquation.residualVector #v[⟨3⟩] = .ok #v[(⟨3⟩ : Binary64) - 1] := by
  rw [unitEquation, System.residualVector_ofMaps]
  rfl

theorem checkJacobianShape_unitEquation : unitEquation.checkJacobianShape.value = .ok () :=
  rfl

/-- With the default settings the array of the tags one and zero makes the runs of the mask, an
array of one number is refused with an error of the kind of its own, and so is the
start of one unknown with two tags. -/
theorem policy_forms_of_standard :
    (∃ solver solver', ofSettings { projection := .array .host .int64 (.list [.int 1, .int 0]) } =
        .ok solver ∧ ofSettings { projection := .tuple [.truth true, .truth false] } = .ok solver' ∧
      ∀ (system : System Binary64 2) (y : Vector Binary64 2),
        (solver.newton Binary64).run system y = (solver'.newton Binary64).run system y) ∧
    (∃ cause, ofSettings { projection := .array .host .int64 (.int 1) } = .error cause ∧
      cause.errorKind = .typeError) ∧
    ∃ solver, ofSettings { projection := .list [.int 1, .int 0] } = .ok solver ∧
      ((solver.newton Binary64).run unitEquation #v[⟨3⟩]).value =
        .error (.policy (.wrongLength 2 (.int 1))) := by
  have hstandard : ofSettings { ({} : Settings) with projection := .text nonnegative } =
      .ok standard := ofSettings_standard
  refine ⟨?_, ?_, ?_⟩
  · obtain ⟨solver, solver', hsolver, hsolver', -, -, hrun⟩ :=
      (policy_forms_agree hstandard (.array .host .int64 (.list [.int 1, .int 0]))
        (n := 2) (by decide)).1 [true, false] rfl
    exact ⟨solver, solver', hsolver, hsolver', fun system y => hrun Binary64 system y⟩
  · rcases (policy_forms_agree hstandard (.array .host .int64 (.int 1)) (n := 1) (by decide)).2.1
      (.notASequence "int") rfl rfl rfl with ⟨cause, hcause, hkind⟩ | ⟨solver, hsolver, -⟩
    · exact ⟨cause, hcause, hkind⟩
    · cases hsolver
  · rcases (policy_forms_agree hstandard (.list [.int 1, .int 0]) (n := 1) (by decide)).2.1
      (.wrongLength 2 (.int 1)) rfl rfl rfl with ⟨cause, hcause, -⟩ | ⟨solver, hsolver, hfails⟩
    · have hstored : ofSettings { projection := .list [.int 1, .int 0] } =
          .ok { standard with projection := .tuple [.int 1, .int 0] } := rfl
      rw [hstored] at hcause
      cases hcause
    · obtain ⟨-, hrun⟩ := hfails Binary64 unitEquation _ _ residualVector_unitEquation
        checkJacobianShape_unitEquation
      exact ⟨solver, hsolver, hrun⟩

/-- Three policies without a mask that are refused for a reason of another kind : a range of `2 ^
62` integers, and an array that holds it, have the wrong length as policies, but cannot be held as
tuples, and an array that holds a dictionary is no sequence, but is stored as the tuple of its
names, of which the first is no tag. -/
theorem policy_forms_differ :
    (∀ policy ∈ [Setting.between 0 4611686018427387904,
        .array .host .anything (Setting.between 0 4611686018427387904)],
      ∃ e cause, projectionMask {} policy 1 = .error e ∧
        ofSettings { projection := policy } = .error cause ∧ cause.errorKind ≠ e.errorKind) ∧
    ∃ e e' solver,
      projectionMask {} (.array .host .anything (.dict [("a", .int 1)])) 1 = .error e ∧
      ofSettings { projection := .array .host .anything (.dict [("a", .int 1)]) } = .ok solver ∧
      ((solver.newton Binary64).init unitEquation #v[⟨3⟩]).value = .error (.policy e') ∧
      e'.errorKind ≠ e.errorKind := by
  constructor
  · intro policy hpolicy
    refine ⟨.wrongLength 4611686018427387904 (.int 1), .outOfMemory, ?_, ?_, by decide⟩
    · rcases List.mem_pair.1 hpolicy with rfl | rfl <;> rfl
    · rcases List.mem_pair.1 hpolicy with rfl | rfl <;> rfl
  · refine ⟨.notASequence "dict", .invalidTag (.text "a"),
      { standard with projection := .tuple [.text "a"] }, rfl, rfl, ?_, by decide⟩
    exact (value_init_of_policy (le_refl 1) rfl residualVector_unitEquation
      checkJacobianShape_unitEquation).1

end Solver

end Stationary
