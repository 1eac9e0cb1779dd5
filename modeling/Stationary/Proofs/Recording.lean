import Stationary.Journal

/-!
# Computations that only write

No part of the iteration reads its journal. `Recording m` says so of a computation `m` :
whatever the journal holds before, the result is `m.value`, and the events `m.written`
are added at the end. It is a class, since every computation of the iteration is
recording by the way it is put together (`Recording.bind`). The result of a sequence is
then the sequence of the results (`value_bind`), so that what a computation returns can
be read off without its journal.
-/

namespace Stationary.Journaled

variable {α β γ : Type} {n : Nat}

/-- The events that a computation writes. -/
def written (m : Journaled α n β) : Journal α n :=
  (start m).2

/-- The journal before `m` changes neither the result nor the events that are added. -/
class Recording (m : Journaled α n β) : Prop where
  run_run : ∀ j : Journal α n, m.run.run j = (m.value, j ++ m.written)

@[simp] theorem value_pure (b : β) : (pure b : Journaled α n β).value = .ok b :=
  rfl

@[simp] theorem value_throw (e : Failure) : (throw e : Journaled α n β).value = .error e :=
  rfl

@[simp] theorem value_record (e : Event α n) : (record e).value = .ok () :=
  rfl

@[simp] theorem value_ofExcept {ε : Type} (cause : ε → Failure) (r : Except ε β) :
    (ofExcept cause r : Journaled α n β).value = r.mapError cause := by
  cases r <;> rfl

@[simp] theorem written_pure (b : β) : (pure b : Journaled α n β).written = #[] :=
  rfl

@[simp] theorem written_record (e : Event α n) : (record e).written = #[e] :=
  rfl

@[simp] theorem written_ofExcept {ε : Type} (cause : ε → Failure) (r : Except ε β) :
    (ofExcept cause r : Journaled α n β).written = #[] := by
  cases r <;> rfl

theorem mapError_eq_ok_iff {ε ε' : Type} {cause : ε → ε'} {r : Except ε β} {b : β} :
    r.mapError cause = .ok b ↔ r = .ok b := by
  constructor
  · intro h
    cases r with
    | ok c =>
      cases h
      rfl
    | error e => cases h
  · rintro rfl
    rfl

@[simp] theorem mapError_id {ε : Type} (r : Except ε β) : r.mapError id = r := by
  cases r <;> rfl

theorem bind_eq_ok_iff {ε : Type} {r : Except ε β} {f : β → Except ε γ} {c : γ} :
    r.bind f = .ok c ↔ ∃ b, r = .ok b ∧ f b = .ok c := by
  cases r <;> simp [Except.bind]

theorem bind_eq_error_iff {ε : Type} {r : Except ε β} {f : β → Except ε γ} {e : ε} :
    r.bind f = .error e ↔ r = .error e ∨ ∃ b, r = .ok b ∧ f b = .error e := by
  cases r <;> simp [Except.bind]

theorem mapError_eq_error_iff {ε ε' : Type} {cause : ε → ε'} {r : Except ε β} {e : ε'} :
    r.mapError cause = .error e ↔ ∃ e₀, r = .error e₀ ∧ cause e₀ = e := by
  constructor
  · intro h
    cases r with
    | ok c => cases h
    | error e₀ =>
      cases h
      exact ⟨e₀, rfl, rfl⟩
  · rintro ⟨e₀, rfl, rfl⟩
    rfl

theorem map_bind_eq {ε δ : Type} (r : Except ε β) (f : β → Except ε γ) (g : γ → δ) :
    (r.bind f).map g = r.bind fun b => (f b).map g := by
  cases r <;> rfl

theorem map_map_eq {ε δ : Type} (r : Except ε β) (f : β → γ) (g : γ → δ) :
    (r.map f).map g = r.map (g ∘ f) := by
  cases r <;> rfl

@[simp] theorem map_id_eq {ε : Type} (r : Except ε β) : r.map id = r := by
  cases r <;> rfl

theorem map_eq_ok_iff {ε : Type} {r : Except ε β} {f : β → γ} {c : γ} :
    r.map f = .ok c ↔ ∃ b, r = .ok b ∧ f b = c := by
  cases r <;> simp [Except.map]

theorem exists_ok_of_toOption {ε : Type} {r : Except ε β} {f : β → γ} {c : γ}
    (h : r.toOption.map f = some c) : ∃ b, r = .ok b ∧ f b = c := by
  cases r with
  | error e => cases h
  | ok b => exact ⟨b, rfl, Option.some.inj h⟩

/-! ## Sequences -/

theorem run_bind_of_ok {m : Journaled α n β} {f : β → Journaled α n γ} {j j' : Journal α n}
    {b : β} (h : m.run.run j = (.ok b, j')) : (m >>= f).run.run j = (f b).run.run j' := by
  show (ExceptT.bindCont f (m.run.run j).1).run (m.run.run j).2 = _
  rw [h]
  rfl

theorem run_bind_of_error {m : Journaled α n β} {f : β → Journaled α n γ} {j j' : Journal α n}
    {e : Failure} (h : m.run.run j = (.error e, j')) :
    (m >>= f).run.run j = (.error e, j') := by
  show (ExceptT.bindCont f (m.run.run j).1).run (m.run.run j).2 = _
  rw [h]
  rfl

/-- The result of a sequence that ends in a function of it, and what is written. -/
theorem start_map (f : β → γ) (m : Journaled α n β) :
    (f <$> m).start = (m.value.map f, m.written) := by
  rw [map_eq_pure_bind]
  unfold value written start
  cases h : m.run.run #[] with
  | mk result journal =>
    cases result with
    | ok b => exact run_bind_of_ok h
    | error e => exact run_bind_of_error h

instance Recording.pure (b : β) : Recording (Pure.pure b : Journaled α n β) where
  run_run j := by
    show (_, j) = (_, j ++ #[])
    simp

instance Recording.throw (e : Failure) : Recording (throw e : Journaled α n β) where
  run_run j := by
    show (_, j) = (_, j ++ #[])
    simp

instance Recording.record (e : Event α n) : Recording (record e) where
  run_run j := by
    show (_, j.push e) = (_, j ++ #[e])
    simp

instance Recording.ofExcept {ε : Type} (cause : ε → Failure) (r : Except ε β) :
    Recording (ofExcept cause r : Journaled α n β) := by
  cases r with
  | ok b => exact Recording.pure b
  | error e => exact Recording.throw (cause e)

variable {m : Journaled α n β} {f : β → Journaled α n γ}

/-- The result of a sequence is that of its second part at the result of the first, or the
failure of the first. -/
theorem value_bind [hm : Recording m] [hf : ∀ b, Recording (f b)] :
    (m >>= f).value = m.value.bind fun b => (f b).value := by
  have hrun := hm.run_run #[]
  show ((m >>= f).run.run #[]).1 = _
  cases h : m.value with
  | ok b =>
    rw [h] at hrun
    rw [run_bind_of_ok hrun, (hf b).run_run]
    rfl
  | error e =>
    rw [h] at hrun
    rw [run_bind_of_error hrun]
    rfl

instance Recording.bind [hm : Recording m] [hf : ∀ b, Recording (f b)] :
    Recording (m >>= f) where
  run_run j := by
    have hrun := hm.run_run j
    have hrun₀ := hm.run_run #[]
    rw [value_bind]
    cases h : m.value with
    | ok b =>
      rw [h] at hrun hrun₀
      have hw : (m >>= f).written = m.written ++ (f b).written := by
        show ((m >>= f).run.run #[]).2 = _
        rw [run_bind_of_ok hrun₀, (hf b).run_run]
        simp
      rw [run_bind_of_ok hrun, (hf b).run_run, hw, Array.append_assoc]
      rfl
    | error e =>
      rw [h] at hrun hrun₀
      have hw : (m >>= f).written = m.written := by
        show ((m >>= f).run.run #[]).2 = _
        rw [run_bind_of_error hrun₀]
        simp
      rw [run_bind_of_error hrun, hw]
      rfl

/-- The events of a sequence are those of its first part, and of the second one if the first
has a result. -/
theorem written_bind [hm : Recording m] [hf : ∀ b, Recording (f b)] : (m >>= f).written =
    m.written ++ (match m.value with | .ok b => (f b).written | .error _ => #[]) := by
  have hrun := hm.run_run #[]
  show ((m >>= f).run.run #[]).2 = _
  cases h : m.value with
  | ok b =>
    rw [h] at hrun
    rw [run_bind_of_ok hrun, (hf b).run_run]
    simp
  | error e =>
    rw [h] at hrun
    rw [run_bind_of_error hrun]
    simp

/-- Of the second part of a sequence only what it does with results of the first one matters. -/
theorem bind_congr_value {g : β → Journaled α n γ} [hm : Recording m]
    (h : ∀ b, m.value = .ok b → f b = g b) : m >>= f = m >>= g := by
  have hrun : ∀ j, (m >>= f).run.run j = (m >>= g).run.run j := by
    intro j
    have hj := hm.run_run j
    cases hv : m.value with
    | ok b =>
      rw [hv] at hj
      rw [run_bind_of_ok hj, run_bind_of_ok hj, h b hv]
    | error e =>
      rw [hv] at hj
      rw [run_bind_of_error hj, run_bind_of_error hj]
  exact funext hrun

end Stationary.Journaled
