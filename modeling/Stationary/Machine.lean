import Stationary.Whole

/-!
# Machines

What a computation runs on : whether integers have 64 bits where no other format is asked
for, or 32, and how many items the memory can hold in one collection. Both limits are
felt far from where they are set, by a counter that wraps around, a tolerance that does
not fit, a mask that is too long to be built; so a machine goes with all settings.

A counter starts at zero and goes from one integer to the next (`Machine.next`), so that it
shows `Machine.counted k` after `k` steps : this is `k` itself up to the greatest integer,
which is what `Machine.Counts k` says (`Machine.counted_of_counts`).
-/

namespace Stationary

theorem two_le_fourGiga : 2 ≤ 4294967296 := by decide

/-- What a computation runs on. -/
structure Machine where
  /-- Integers have 64 bits, and 32 otherwise. -/
  wide : Bool := true
  /-- The greatest number of items that a collection can hold. -/
  mostItems : Nat := 4294967296
  /-- A pair can be held. -/
  two_le_mostItems : 2 ≤ mostItems := by exact two_le_fourGiga

/-- The format of integers. -/
def Machine.integers (machine : Machine) : WholeFormat :=
  if machine.wide then .int64 else .int32

namespace Machine

/-- The integer that a counter shows after it has shown `i`. -/
def next (machine : Machine) (i : Int) : Int :=
  machine.integers.wrap (i + 1)

/-- The integer that a counter shows after `k` steps. -/
def counted (machine : Machine) (k : Nat) : Int :=
  machine.integers.wrap k

/-- A counter can reach `k`. -/
def Counts (machine : Machine) (k : Nat) : Prop :=
  (k : Int) ≤ machine.integers.greatest

instance (machine : Machine) (k : Nat) : Decidable (machine.Counts k) :=
  inferInstanceAs (Decidable ((k : Int) ≤ machine.integers.greatest))

variable {machine : Machine} {j k : Nat}

/-- The number of integers that are not negative. -/
def halfRange (machine : Machine) : Nat :=
  if machine.wide then 9223372036854775808 else 2147483648

theorem halfRange_pos : 0 < machine.halfRange := by
  unfold halfRange
  split <;> decide

theorem greatest_integers : machine.integers.greatest = machine.halfRange - 1 := by
  unfold integers halfRange
  cases machine.wide <;> rfl

/-- Integers wrap around at the ends of their range. -/
theorem wrap_integers (i : Int) : machine.integers.wrap i = i.bmod (2 * machine.halfRange) := by
  unfold integers halfRange
  cases machine.wide
  · exact BitVec.toInt_ofInt i
  · exact BitVec.toInt_ofInt i

/-- Integers that have been wrapped around and go on are those further on. -/
theorem wrap_wrap_add (i j : Int) :
    machine.integers.wrap (machine.integers.wrap i + j) = machine.integers.wrap (i + j) := by
  rw [wrap_integers, wrap_integers, wrap_integers, Int.bmod_add_bmod]

theorem counted_zero : machine.counted 0 = 0 := by
  rw [counted, wrap_integers]
  exact Int.zero_bmod

/-- The counter goes from one integer to the next. -/
theorem next_counted (k : Nat) : machine.next (machine.counted k) = machine.counted (k + 1) := by
  rw [next, counted, wrap_wrap_add]
  rfl

theorem counted_le (k : Nat) : machine.counted k ≤ machine.integers.greatest := by
  have hpos := machine.halfRange_pos
  have h := Int.bmod_lt (x := k) (m := 2 * machine.halfRange) (by omega)
  rw [counted, wrap_integers, greatest_integers]
  omega

/-- Up to the greatest integer a counter shows the number of steps. -/
theorem counted_of_counts (h : machine.Counts k) : machine.counted k = k := by
  rw [Counts, greatest_integers] at h
  rw [counted, wrap_integers]
  exact Int.bmod_eq_of_le (by omega) (by omega)

/-- A counter never shows more than the number of steps. -/
theorem counted_le_self (k : Nat) : machine.counted k ≤ k := by
  have hmod : (k : Int) % (2 * machine.halfRange : Nat) ≤ k :=
    Int.ofNat_le.2 (Nat.mod_le k (2 * machine.halfRange))
  rw [counted, wrap_integers, Int.bmod_def]
  split <;> omega

theorem counted_one : machine.counted 1 = 1 := by
  refine counted_of_counts ?_
  unfold Counts integers
  cases machine.wide <;> decide

theorem Counts.mono (h : machine.Counts k) (hj : j ≤ k) : machine.Counts j := by
  unfold Counts at *
  omega

end Machine

end Stationary
