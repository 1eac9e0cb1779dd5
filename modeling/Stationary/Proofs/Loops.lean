import Stationary.Run
import Stationary.Proofs.Walk

/-!
# Loops with and without an end

The loop of a run is a partial function, of which only its equation is known. It is opened
here, once : `Newton.loop_induction` says what holds of every loop with an end,
`Newton.recording_repeatUntil` that a loop only writes, and `Newton.repeatUntil_congr` that
nothing counts but what it does at the places where it goes by. Of the iteration
`Newton.value_iterate_of_last` and `Newton.value_iterate_of_step` say what it does at a head
of the loop, and all else follows from these.

Beside the loop stands `Newton.iterateFor`, which gives up after a number of heads. Where it
has a result the iteration has the same (`Newton.value_iterate_of_iterateFor`), and where it
never has one the iteration has no end (`Newton.value_iterate_of_endless`). So a claim on
all iterations is proved by induction on the heads that are allowed.
-/

set_option linter.unusedSectionVars false

namespace Stationary

/-- One of the flags is up. -/
def Flags.raised (f : Flags) : Bool :=
  f.converged || f.singular || f.nonFinite

/-- The flags announce an outcome if one of them is up. -/
theorem Flags.outcome?_eq_none_iff {f : Flags} : f.outcome? = none ↔ f.raised = false := by
  unfold outcome? raised
  cases f.converged <;> cases f.singular <;> cases f.nonFinite <;> simp

namespace Newton

variable {α : Type} {n : Nat} [Scalar α] {newton newton' : Newton α}
  {system system' : System α n} {y y' : Vector α n} {s s' : State α n} {k : Nat}

open Journaled

/-- What a run reports that stops at `y` in state `s`. -/
def ending (newton : Newton α) (y : Vector α n) (s : State α n) : Solution α n where
  value := y
  outcome := (newton.status s).outcome?.getD .maxIterations
  steps := s.steps
  residualNorm := s.norm

instance recording_finish (outcome : Outcome) (y : Vector α n) (s : State α n) :
    Recording (finish outcome y s) := by
  unfold finish
  infer_instance

theorem value_finish (outcome : Outcome) : (finish outcome y s).value =
    .ok { value := y, outcome := outcome, steps := s.steps, residualNorm := s.norm } := by
  unfold finish
  rw [value_bind]
  rfl

/-! ## Any loop -/

section AnyLoop

variable {stop? stop?' : State α n → Option Outcome}
  {step step' : Vector α n → State α n → Journaled α n (Vector α n × State α n)}
  [hrec : ∀ y s, Recording (step y s)] {journal : Journal α n}
  {r : Except Failure (Solution α n) × Journal α n}

/-- The journal at a head of the loop. -/
def atHead (s : State α n) (journal : Journal α n) : Journal α n :=
  journal.push (.note (.reached s.steps s.norm))

theorem atHead_append (s : State α n) (journal w : Journal α n) :
    atHead s journal ++ w = journal ++ (#[.note (.reached s.steps s.norm)] ++ w) := by
  simp [atHead]

theorem loop_of_stop {outcome : Outcome} (h : stop? s = some outcome) :
    s.loop stop? step y journal =
      some ((finish outcome y s).value, atHead s journal ++ (finish outcome y s).written) := by
  rw [State.loop, h, ← (recording_finish outcome y s).run_run]
  rfl

theorem loop_of_error {e : Failure} (h : stop? s = none) (he : (step y s).value = .error e) :
    s.loop stop? step y journal =
      some (.error e, atHead s journal ++ (step y s).written) := by
  have hstep := (hrec y s).run_run (atHead s journal)
  rw [he] at hstep
  rw [State.loop, h]
  simp only
  rw [show (step y s).run.run (journal.push (.note (.reached s.steps s.norm))) = _ from hstep]

theorem loop_of_step (h : stop? s = none) (hs : (step y s).value = .ok (y', s')) :
    s.loop stop? step y journal =
      s'.loop stop? step y' (atHead s journal ++ (step y s).written) := by
  have hstep := (hrec y s).run_run (atHead s journal)
  rw [hs] at hstep
  rw [State.loop, h]
  simp only
  rw [show (step y s).run.run (journal.push (.note (.reached s.steps s.norm))) = _ from hstep]

/-- What holds at the end of a loop, and at a head if it does after the step from there, holds
of every loop that has an end. -/
theorem loop_induction
    {motive : Vector α n → State α n → Journal α n →
      Except Failure (Solution α n) × Journal α n → Prop}
    (atEnd : ∀ y s journal outcome, stop? s = some outcome →
      motive y s journal
        ((finish outcome y s).value, atHead s journal ++ (finish outcome y s).written))
    (atFailure : ∀ y s journal e, stop? s = none → (step y s).value = .error e →
      motive y s journal (.error e, atHead s journal ++ (step y s).written))
    (atStep : ∀ y s journal y' s' r, stop? s = none → (step y s).value = .ok (y', s') →
      motive y' s' (atHead s journal ++ (step y s).written) r → motive y s journal r)
    (h : s.loop stop? step y journal = some r) : motive y s journal r := by
  refine State.loop.partial_correctness stop? step motive (fun rest ih y s journal r h => ?_)
    y s journal r h
  simp only at h
  cases hstop : stop? s with
  | some outcome =>
    rw [hstop] at h
    obtain rfl := Option.some.inj h
    rw [(recording_finish outcome y s).run_run]
    exact atEnd y s journal outcome hstop
  | none =>
    rw [hstop] at h
    simp only at h
    rw [(hrec y s).run_run] at h
    cases hvalue : (step y s).value with
    | error e =>
      rw [hvalue] at h
      obtain rfl := Option.some.inj h
      exact atFailure y s journal e hstop hvalue
    | ok p =>
      rw [hvalue] at h
      exact atStep y s journal p.1 p.2 r hstop hvalue (ih _ _ _ _ h)

/-- The journal that a loop starts with changes neither its result nor what it writes. -/
theorem loop_append (h : s.loop stop? step y journal = some r) : ∃ w, r.2 = journal ++ w ∧
    ∀ journal', s.loop stop? step y journal' = some (r.1, journal' ++ w) := by
  refine loop_induction (motive := fun y s journal r => ∃ w, r.2 = journal ++ w ∧
    ∀ journal', s.loop stop? step y journal' = some (r.1, journal' ++ w)) ?_ ?_ ?_ h
  · intro y s journal outcome hstop
    exact ⟨_, atHead_append .., fun journal' => by rw [loop_of_stop hstop, atHead_append]⟩
  · intro y s journal e hstop he
    exact ⟨_, atHead_append .., fun journal' => by rw [loop_of_error hstop he, atHead_append]⟩
  · rintro y s journal y' s' r hstop hs ⟨w, hw, hloop⟩
    refine ⟨#[.note (.reached s.steps s.norm)] ++ ((step y s).written ++ w), ?_,
      fun journal' => ?_⟩
    · rw [hw, Array.append_assoc, atHead_append]
    · rw [loop_of_step hstop hs, hloop, Array.append_assoc, atHead_append]

theorem run_repeatUntil (y : Vector α n) (s : State α n) (journal : Journal α n) :
    (repeatUntil stop? step y s).run.run journal =
      (s.loop stop? step y journal).getD (.error .endless, journal) :=
  rfl

/-- A loop of steps that only write only writes. -/
instance recording_repeatUntil (y : Vector α n) (s : State α n) :
    Recording (repeatUntil stop? step y s) where
  run_run journal := by
    have hstart : (repeatUntil stop? step y s).start =
        (s.loop stop? step y #[]).getD (.error .endless, #[]) := rfl
    unfold value written
    rw [hstart, run_repeatUntil]
    cases h : s.loop stop? step y journal with
    | some r =>
      obtain ⟨w, hw, hloop⟩ := loop_append h
      rw [hloop #[]]
      simp [← hw]
    | none =>
      cases h₀ : s.loop stop? step y #[] with
      | some r =>
        obtain ⟨w, -, hloop⟩ := loop_append h₀
        rw [hloop journal] at h
        cases h
      | none => simp

/-- A loop that has an end has it too if it does the same at all places where it goes by. -/
theorem loop_congr {P : Vector α n → State α n → Prop}
    (hstop : ∀ y s, P y s → stop?' s = stop? s)
    (hstep : ∀ y s, P y s → stop? s = none → step' y s = step y s)
    (hP : ∀ y s y' s', P y s → stop? s = none → (step y s).value = .ok (y', s') → P y' s')
    (h : P y s) (hloop : s.loop stop? step y journal = some r) :
    s.loop stop?' step' y journal = some r := by
  have hrun : ∀ y s, P y s → stop? s = none → ∀ j,
      (step' y s).run.run j = ((step y s).value, j ++ (step y s).written) := by
    intro y s h hnone j
    rw [hstep y s h hnone, (hrec y s).run_run]
  refine loop_induction (motive := fun y s journal r => P y s →
    s.loop stop?' step' y journal = some r) ?_ ?_ ?_ hloop h
  · intro y s journal outcome hs h
    rw [State.loop, hstop y s h, hs, ← (recording_finish outcome y s).run_run]
    rfl
  · intro y s journal e hs he h
    rw [State.loop, hstop y s h, hs]
    simp only
    rw [hrun y s h hs, he]
    rfl
  · intro y s journal y' s' r hs hvalue ih h
    rw [State.loop, hstop y s h, hs]
    simp only
    rw [hrun y s h hs, hvalue]
    exact ih (hP y s y' s' h hs hvalue)

/-- Two loops that stop alike and take the same steps, at all places where one of them goes by,
are one computation. -/
theorem repeatUntil_congr [hrec' : ∀ y s, Recording (step' y s)]
    {P : Vector α n → State α n → Prop} (hstop : ∀ y s, P y s → stop?' s = stop? s)
    (hstep : ∀ y s, P y s → stop? s = none → step' y s = step y s)
    (hP : ∀ y s y' s', P y s → stop? s = none → (step y s).value = .ok (y', s') → P y' s')
    (h : P y s) : repeatUntil stop?' step' y s = repeatUntil stop? step y s := by
  have hloop : ∀ journal, s.loop stop?' step' y journal = s.loop stop? step y journal := by
    intro journal
    refine Option.ext fun r => ⟨loop_congr (fun y s h => (hstop y s h).symm)
      (fun y s h hnone => ?_) (fun y s y' s' h hnone hs => ?_) h, loop_congr hstop hstep hP h⟩
    · rw [hstop y s h] at hnone
      exact (hstep y s h hnone).symm
    · rw [hstop y s h] at hnone
      rw [hstep y s h hnone] at hs
      exact hP y s y' s' h hnone hs
  unfold repeatUntil
  simp only [hloop]

end AnyLoop

/-! ## Heads of the iteration -/

/-- A run goes on where no flag is up and the counter is below the budget. -/
theorem stop?_eq_none_iff : newton.stop? s = none ↔
    (newton.status s).raised = false ∧ s.steps < newton.maxSteps := by
  unfold stop?
  cases h : (newton.status s).outcome? with
  | some o =>
    have hraised : (newton.status s).raised ≠ false := fun hr => by
      rw [Flags.outcome?_eq_none_iff.2 hr] at h
      cases h
    simp [hraised]
  | none => simp [Flags.outcome?_eq_none_iff.1 h]

/-- Where a run does not go on it stops with the outcome that it reports. -/
theorem stop?_of_last (y : Vector α n)
    (h : newton.maxSteps ≤ s.steps ∨ (newton.status s).raised = true) :
    newton.stop? s = some (newton.ending y s).outcome := by
  unfold stop? ending
  cases ho : (newton.status s).outcome? with
  | some o => rfl
  | none =>
    rcases h with h | h
    · exact if_pos h
    · rw [Flags.outcome?_eq_none_iff.1 ho] at h
      cases h

variable [Decomposes α]

variable (newton system) in
/-- The iteration only writes. -/
instance recording_iterate (y : Vector α n) (s : State α n) :
    Recording (newton.iterate system y s) :=
  recording_repeatUntil y s

/-- Where the budget is used up or a flag is up the iteration ends with a report. -/
theorem value_iterate_of_last
    (h : newton.maxSteps ≤ s.steps ∨ (newton.status s).raised = true) :
    (newton.iterate system y s).value = .ok (newton.ending y s) := by
  show ((s.loop newton.stop? (newton.step system) y #[]).getD (.error .endless, #[])).1 = _
  rw [loop_of_stop (stop?_of_last y h)]
  exact value_finish _

/-- Elsewhere it goes on after one step. -/
theorem value_iterate_of_step (hraised : (newton.status s).raised = false)
    (hsteps : s.steps < newton.maxSteps) :
    (newton.iterate system y s).value =
      (newton.step system y s).value.bind fun p => (newton.iterate system p.1 p.2).value := by
  have hstop := stop?_eq_none_iff.2 ⟨hraised, hsteps⟩
  show ((s.loop newton.stop? (newton.step system) y #[]).getD (.error .endless, #[])).1 = _
  cases hs : (newton.step system y s).value with
  | error e =>
    rw [loop_of_error hstop hs]
    rfl
  | ok p =>
    -- the rest goes on with a journal that is not empty, and has the same result
    let journal := atHead s #[] ++ (newton.step system y s).written
    have hrest : ((newton.iterate system p.1 p.2).run.run journal).1 =
        (newton.iterate system p.1 p.2).value := by
      rw [(recording_iterate newton system p.1 p.2).run_run]
    rw [loop_of_step hstop hs]
    refine Eq.trans ?_ hrest
    rw [iterate, run_repeatUntil]
    cases p.2.loop newton.stop? (newton.step system) p.1 journal <;> rfl

/-! ## Loops with a number of heads -/

/-- The result of the iteration, if it has one at one of the first `fuel` heads. -/
def iterateFor (newton : Newton α) (system : System α n) :
    Nat → Vector α n → State α n → Option (Except Failure (Solution α n))
  | 0, _, _ => none
  | fuel + 1, y, s =>
    if (newton.status s).raised || newton.maxSteps ≤ s.steps then some (.ok (newton.ending y s))
    else
      match (newton.step system y s).value with
      | .error e => some (.error e)
      | .ok p => iterateFor newton system fuel p.1 p.2

variable {fuel : Nat}

theorem iterateFor_of_last (h : newton.maxSteps ≤ s.steps ∨ (newton.status s).raised = true) :
    newton.iterateFor system (fuel + 1) y s = some (.ok (newton.ending y s)) := by
  rw [iterateFor, if_pos]
  simpa [or_comm] using h

theorem iterateFor_of_step (hraised : (newton.status s).raised = false)
    (hsteps : s.steps < newton.maxSteps) :
    newton.iterateFor system (fuel + 1) y s =
      match (newton.step system y s).value with
      | .error e => some (.error e)
      | .ok p => newton.iterateFor system fuel p.1 p.2 := by
  rw [iterateFor, if_neg]
  simpa [hraised] using hsteps

/-- At a head of the loop either the run stops, or there is no flag and budget is left. -/
theorem last_or_step (newton : Newton α) (s : State α n) :
    (newton.maxSteps ≤ s.steps ∨ (newton.status s).raised = true) ∨
      (newton.status s).raised = false ∧ s.steps < newton.maxSteps := by
  cases hraised : (newton.status s).raised with
  | true => exact Or.inl (Or.inr rfl)
  | false =>
    by_cases h : newton.maxSteps ≤ s.steps
    · exact Or.inl (Or.inl h)
    · exact Or.inr ⟨rfl, Int.lt_of_not_ge h⟩

/-- What some heads lead to is the result of the iteration. -/
theorem value_iterate_of_iterateFor {r : Except Failure (Solution α n)}
    (h : newton.iterateFor system fuel y s = some r) : (newton.iterate system y s).value = r := by
  induction fuel generalizing y s with
  | zero => cases h
  | succ fuel ih =>
    rcases newton.last_or_step s with hlast | ⟨hraised, hsteps⟩
    · rw [iterateFor_of_last hlast] at h
      rw [value_iterate_of_last hlast]
      exact Option.some.inj h
    · rw [iterateFor_of_step hraised hsteps] at h
      rw [value_iterate_of_step hraised hsteps]
      cases hs : (newton.step system y s).value with
      | error e =>
        rw [hs] at h
        exact Option.some.inj h
      | ok p =>
        rw [hs] at h
        exact ih h

/-- A loop with an end has it at one of finitely many heads. -/
theorem exists_iterateFor {journal : Journal α n}
    {r : Except Failure (Solution α n) × Journal α n}
    (h : s.loop newton.stop? (newton.step system) y journal = some r) :
    ∃ fuel, newton.iterateFor system fuel y s = some r.1 := by
  refine loop_induction
    (motive := fun y s _ r => ∃ fuel, newton.iterateFor system fuel y s = some r.1) ?_ ?_ ?_ h
  · intro y s journal outcome hstop
    refine ⟨1, ?_⟩
    rcases newton.last_or_step s with hlast | hstep
    · rw [stop?_of_last y hlast] at hstop
      obtain rfl := Option.some.inj hstop
      rw [iterateFor_of_last hlast, value_finish]
      rfl
    · rw [stop?_eq_none_iff.2 hstep] at hstop
      cases hstop
  · intro y s journal e hstop he
    obtain ⟨hraised, hsteps⟩ := stop?_eq_none_iff.1 hstop
    exact ⟨1, by rw [iterateFor_of_step hraised hsteps, he]⟩
  · rintro y s journal y' s' r hstop hs ⟨fuel, hfuel⟩
    obtain ⟨hraised, hsteps⟩ := stop?_eq_none_iff.1 hstop
    exact ⟨fuel + 1, by rw [iterateFor_of_step hraised hsteps, hs]; exact hfuel⟩

/-- An iteration that has no result at any number of heads has no end. -/
theorem value_iterate_of_endless (h : ∀ fuel, newton.iterateFor system fuel y s = none) :
    (newton.iterate system y s).value = .error .endless := by
  show ((s.loop newton.stop? (newton.step system) y #[]).getD (.error .endless, #[])).1 = _
  cases hloop : s.loop newton.stop? (newton.step system) y #[] with
  | none => rfl
  | some r =>
    obtain ⟨fuel, hfuel⟩ := exists_iterateFor hloop
    rw [h fuel] at hfuel
    cases hfuel

/-- Two iterations whose results after any number of heads correspond have results that
correspond, or have both no end. -/
theorem value_iterate_map {β : Type} {m : Nat} [Scalar β] [Decomposes β] {newton' : Newton β}
    {system' : System β m} {z : Vector β m} {t : State β m}
    {f : Solution α n → Solution β m}
    (h : ∀ fuel, newton'.iterateFor system' fuel z t =
      (newton.iterateFor system fuel y s).map (·.map f)) :
    (newton'.iterate system' z t).value = (newton.iterate system y s).value.map f := by
  by_cases hend : ∃ fuel r, newton.iterateFor system fuel y s = some r
  · obtain ⟨fuel, r, hr⟩ := hend
    rw [value_iterate_of_iterateFor hr]
    have hr' : newton'.iterateFor system' fuel z t = some (r.map f) := by
      rw [h, hr]
      rfl
    exact value_iterate_of_iterateFor hr'
  · have hnone : ∀ fuel, newton.iterateFor system fuel y s = none := fun fuel =>
      Option.eq_none_iff_forall_ne_some.2 fun r hr => hend ⟨fuel, r, hr⟩
    rw [value_iterate_of_endless hnone, value_iterate_of_endless fun fuel => by
      rw [h, hnone]
      rfl]
    rfl

/-! ## Results and journals -/

/-- At the end of the loop the iteration writes where it is and how it ended. -/
theorem written_iterate_of_last
    (h : newton.maxSteps ≤ s.steps ∨ (newton.status s).raised = true) :
    (newton.iterate system y s).written =
      atHead s #[] ++ (finish (newton.ending y s).outcome y s).written := by
  show ((s.loop newton.stop? (newton.step system) y #[]).getD (.error .endless, #[])).2 = _
  rw [loop_of_stop (stop?_of_last y h)]
  rfl

/-- Before the end it writes what the step does, and then what is left to write. -/
theorem written_iterate_of_step (hraised : (newton.status s).raised = false)
    (hsteps : s.steps < newton.maxSteps) (hs : (newton.step system y s).value = .ok (y', s'))
    (hend : (newton.iterate system y' s').value ≠ .error .endless) :
    (newton.iterate system y s).written =
      atHead s #[] ++ (newton.step system y s).written ++
        (newton.iterate system y' s').written := by
  let journal := atHead s #[] ++ (newton.step system y s).written
  have hrest := (recording_iterate newton system y' s').run_run journal
  rw [iterate, run_repeatUntil] at hrest
  show ((s.loop newton.stop? (newton.step system) y #[]).getD (.error .endless, #[])).2 = _
  rw [loop_of_step (stop?_eq_none_iff.2 ⟨hraised, hsteps⟩) hs]
  cases hloop : s'.loop newton.stop? (newton.step system) y' journal with
  | none =>
    rw [hloop] at hrest
    exact absurd (congrArg Prod.fst hrest).symm hend
  | some r =>
    rw [hloop] at hrest
    exact congrArg Prod.snd hrest

end Newton

end Stationary
